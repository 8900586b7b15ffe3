import GemCore.Keystore.Locality
import GemCore.Keystore.Migration
import GemCore.Keystore.Rerun

/-!
# The shared-password migration is safe to interrupt

A run of `migrate_to_shared_password` can break off at any call to either store. What is then
true of every wallet, and where a further run takes it, is put together here.

## Main definitions

* `Recoverable` — a password that will open the wallet's file is still stored.
* `MigratedAlone` — a wallet is as its own migration leaves it.
* `SameEnd` — two devices are alike for a wallet, up to the random numbers in its file.

## Main results

* `migrateToSharedPassword_crash_safe` — safety, independence and rerun.
-/

namespace GemCore.Keystore

open Lib (Proc Fault Outcome)

/-- The wallet's own password is still stored, or it is gone and either the file opens with
the shared password or the shared password is the same one, and is stored. -/
def Recoverable (X : Externals) (ks : FileKeystore) (wallet : WalletId)
    (password shared : String) (d' : Device) : Prop :=
  d'.aliases wallet = some password ∨
    (d'.aliases wallet = none ∧ d'.shared = some shared ∧ (password = shared ∨
      ∃ payload, openView X wallet (d'.view X ks wallet).1 shared = .ok payload))

/-- What `migrate_to_shared_password` does before it comes to a wallet. -/
def beforeWallet (X : Externals) (ks : FileKeystore) (draws : WalletId → Draws)
    (wallet : WalletId) : ServiceIo Unit := do
  let wallets ← getWallets
  let legacy ← collectLegacy wallets
  let shared ← getPassword
  let _ ← migrateLoop X ks draws shared (legacy.takeWhile (·.1 ≠ wallet))
  pure ()

/-- The outcomes of the calls from where a run comes to a wallet. -/
def ownFaults (X : Externals) (ks : FileKeystore) (draws : WalletId → Draws) (wallet : WalletId)
    (d : Device) (faults : List Fault) : List Fault :=
  (beforeWallet X ks draws wallet d faults).2.2

/-- What `d'` holds for a wallet is what its own migration leaves, from `d` and with the outcomes
that its calls have in the run: it is not cut off. -/
def MigratedAlone (X : Externals) (ks : FileKeystore) (draws : WalletId → Draws)
    (wallet : WalletId) (password shared : String) (faults : List Fault) (d d' : Device) : Prop :=
  let alone := migrateWalletPassword X ks draws wallet password shared d
    (ownFaults X ks draws wallet d faults)
  alone.1 ≠ .stopped ∧ d'.view X ks wallet = alone.2.1.view X ks wallet

/-- The two devices hold the same password for a wallet, and the same file, or files that
give one secret under the shared password. -/
def SameEnd (X : Externals) (ks : FileKeystore) (wallet : WalletId) (shared : String)
    (d d' : Device) : Prop :=
  d.aliases wallet = d'.aliases wallet ∧
    ((d.view X ks wallet).1 = (d'.view X ks wallet).1 ∨
      ∃ payload, openView X wallet (d.view X ks wallet).1 shared = .ok payload ∧
        openView X wallet (d'.view X ks wallet).1 shared = .ok payload)

/-- The device an undisturbed run of the migration ends in. -/
def undisturbed (X : Externals) (ks : FileKeystore) (draws : WalletId → Draws) (d : Device) :
    Device :=
  (migrateToSharedPassword X ks draws d []).2.1

section

variable {X : Externals} {ks : FileKeystore} {draws : WalletId → Draws} {d d' : Device}
  {wallet : WalletId} {password shared : String}

lemma SameEnd.of_view_eq (h : d.view X ks wallet = d'.view X ks wallet) :
    SameEnd X ks wallet shared d d' :=
  ⟨congrArg Prod.snd h, .inl (congrArg Prod.fst h)⟩

/-- However far a wallet has come, its file is as it was or opens with the shared password. -/
theorem Progress.file (hX : X.Lawful) {view view' : Option (List UInt8) × Option String}
    (h : Progress X ks draws wallet password shared view view') :
    view'.1 = view.1 ∨ ∃ payload, openView X wallet view'.1 shared = .ok payload := by
  cases h with
  | untouched file | done hp hopen | same hp heq => exact .inl rfl
  | rekeyed hp h | rekeyedDone hp h =>
    obtain ⟨payload, -, -, hopen⟩ := h.opens hX
    exact .inr ⟨payload, hopen⟩

/-- Where the results agree and no file has changed except to open with the shared password,
the ends are the same. -/
theorem SameEnd.of_result_eq {file : Option (List UInt8)}
    (hresult : d.result X ks wallet shared = d'.result X ks wallet shared)
    (hfile : (d.view X ks wallet).1 = file ∨
      ∃ payload, openView X wallet (d.view X ks wallet).1 shared = .ok payload)
    (hfile' : (d'.view X ks wallet).1 = file ∨
      ∃ payload, openView X wallet (d'.view X ks wallet).1 shared = .ok payload) :
    SameEnd X ks wallet shared d d' := by
  obtain ⟨halias, hopen⟩ := Prod.ext_iff.mp hresult
  simp only [Device.result] at halias hopen
  refine ⟨halias, ?_⟩
  have hboth (payload : SecretPayload) :
      openView X wallet (d.view X ks wallet).1 shared = .ok payload ↔
        openView X wallet (d'.view X ks wallet).1 shared = .ok payload := by
    rw [← Lib.toOption_eq_some_iff, ← Lib.toOption_eq_some_iff, hopen]
  rcases hfile with hfile | ⟨payload, h⟩
  · rcases hfile' with hfile' | ⟨payload, h'⟩
    · exact .inl (hfile.trans hfile'.symm)
    · exact .inr ⟨payload, (hboth payload).mpr h', h'⟩
  · exact .inr ⟨payload, h, (hboth payload).mp h⟩

/-- A run that reaches its end has failed before the first wallet and changed nothing, or has
run the migration of each wallet to its end. -/
theorem migrateToSharedPassword_own (hids : DistinctIds X (d.wallets.map Wallet.id))
    (hnodup : (d.wallets.map Wallet.id).Nodup) {faults rest : List Fault} {o : Outcome String ℕ}
    (hrun : migrateToSharedPassword X ks draws d faults = (o, d', rest)) (ho : o ≠ .stopped) :
    ((∃ e, o = .error e) ∧ d' = d) ∨
      ∀ wallet password, (wallet, password) ∈ d.legacy d.wallets →
        MigratedAlone X ks draws wallet password d.sharedPassword faults d d' := by
  have hwallets : getWallets.All d (fun wallets d₁ => wallets = d.wallets ∧ d₁ = d)
      (fun _ d₁ => d₁ = d) fun _ => True := by
    refine Proc.All.call (fun wallets d₁ h => ?_) (fun e h => by cases h) (fun _ => rfl) trivial
    obtain ⟨rfl, rfl⟩ : d.wallets = wallets ∧ d = d₁ := by simpa using h
    exact ⟨rfl, rfl⟩
  rcases Proc.bind_cases hrun ho with ⟨wallets, d₁, rest₁, hfirst, hrun⟩ | ⟨e, hfirst, rfl⟩
  swap
  · exact .inl ⟨⟨e, rfl⟩, hwallets.of_error hfirst⟩
  obtain ⟨rfl, rfl⟩ := hwallets.of_ok hfirst
  rcases Proc.bind_cases hrun ho with ⟨legacy, d₂, rest₂, hlegacy, hrun⟩ | ⟨e, hlegacy, rfl⟩
  swap
  · exact .inl ⟨⟨e, rfl⟩, (collectLegacy_all _).of_error hlegacy⟩
  obtain ⟨rfl, rfl⟩ := (collectLegacy_all _).of_ok hlegacy
  split at hrun
  · rename_i hnil
    right
    rw [hnil]
    exact fun _ _ h => by cases h
  rcases Proc.bind_cases hrun ho with ⟨shared, d₃, rest₃, hshared, hrun⟩ | ⟨e, hshared, rfl⟩
  swap
  · exact .inl ⟨⟨e, rfl⟩, getPassword_all.of_error hshared⟩
  obtain ⟨rfl, hd₃⟩ := getPassword_all.of_ok hshared
  right
  intro wallet password hmem
  have halias (w : WalletId) (p : String) (h : (w, p) ∈ d₂.legacy d₂.wallets) :
      d₃.aliases w = some p := by
    rw [hd₃]
    exact (mem_legacy_iff.mp h).1
  have hsub := legacy_sublist (d := d₂) d₂.wallets
  have hbefore : ownFaults X ks draws wallet d₂ faults = (migrateLoop X ks draws d₂.sharedPassword
      ((d₂.legacy d₂.wallets).takeWhile (·.1 ≠ wallet)) d₃ rest₃).2.2 := by
    simp only [ownFaults, beforeWallet, Proc.bind_apply, hfirst, hlegacy, hshared]
    rcases migrateLoop X ks draws d₂.sharedPassword
      ((d₂.legacy d₂.wallets).takeWhile (·.1 ≠ wallet)) d₃ rest₃ with ⟨_ | _ | _, d₄, rest₄⟩ <;> rfl
  have hown {o₁ : Outcome String (ℕ × List String)} {d₄ : Device} {rest₄ : List Fault}
      (hloop : migrateLoop X ks draws d₂.sharedPassword (d₂.legacy d₂.wallets) d₃ rest₃ =
        (o₁, d₄, rest₄)) (ho₁ : o₁ ≠ .stopped) :
      MigratedAlone X ks draws wallet password d₂.sharedPassword faults d₂ d₄ := by
    obtain ⟨ho₂, hview⟩ := migrateLoop_own hids (fun w hw => hsub.subset hw) (hsub.nodup hnodup)
      halias hloop ho₁ hmem
    -- Storing the shared password changes nothing that belongs to a wallet.
    have hagree : AgreeFor X ks draws wallet d₃ d₂ := by
      rw [hd₃]
      exact ⟨fun _ _ => rfl, rfl⟩
    rw [← hbefore] at ho₂ hview
    obtain ⟨h₁, h₂, -⟩ := migrateWalletPassword_respects password d₂.sharedPassword d₃ d₂ hagree
      (ownFaults X ks draws wallet d₂ faults)
    exact ⟨fun h => ho₂ (h₁.trans h), hview.trans h₂.view_eq⟩
  rcases Proc.bind_cases hrun ho with ⟨⟨migrated, failures⟩, d₄, rest₄, hloop, hrun⟩ | ⟨e, hloop, rfl⟩
  · have hd₄ : d₄ = d' := by
      simp only at hrun
      split at hrun
      · exact congrArg (·.2.1) hrun
      · exact congrArg (·.2.1) hrun
    rw [← hd₄]
    exact hown hloop fun h => by cases h
  · exact hown hloop fun h => by cases h

/-- The undisturbed run takes the wallets where they are to be taken, by way of progress. -/
theorem undisturbed_spec (hX : X.Lawful) (hids : DistinctIds X (d.wallets.map Wallet.id))
    (hnodup : (d.wallets.map Wallet.id).Nodup)
    (hgood : GoodDraws X ks draws (d.wallets.map Wallet.id) d.disk) :
    AllSettled X ks (d.wallets.map Wallet.id) d.sharedPassword (d.legacy d.wallets) d
        (undisturbed X ks draws d) ∧
      Migrated X ks draws d (undisturbed X ks draws d) := by
  obtain ⟨o, d₁, hcalm, hpost⟩ := migrateToSharedPassword_quiet hX hids hnodup hgood
  have hd₁ : undisturbed X ks draws d = d₁ := by rw [undisturbed, hcalm]
  have hall := (migrateToSharedPassword_all hids hnodup).of_run hcalm
  rw [hd₁]
  cases o with
  | ok n | error e => exact ⟨hpost, hall⟩
  | stopped => exact hpost.elim

/-- A wallet that has no password of its own after a run is not migrated again. -/
theorem not_mem_legacy {wallets : List Wallet} (h : d.aliases wallet = none) :
    wallet ∉ (d.legacy wallets).map Prod.fst := by
  intro hmem
  obtain ⟨⟨w, p⟩, hin, rfl⟩ := List.mem_map.mp hmem
  rw [(mem_legacy_iff.mp hin).1] at h
  cases h

/-- Running the migration again, from wherever a run has broken off, ends as one undisturbed
run does. -/
theorem Migrated.sameEnd (hX : X.Lawful) (hids : DistinctIds X (d.wallets.map Wallet.id))
    (hnodup : (d.wallets.map Wallet.id).Nodup)
    (hone : ∀ w ∈ d.wallets.map Wallet.id, ∀ bytes, (d.view X ks w).1 = some bytes →
      OneKey X bytes)
    (h : Migrated X ks draws d d') {draws₁ draws₂ : WalletId → Draws}
    (hgood₁ : GoodDraws X ks draws₁ (d.wallets.map Wallet.id) d.disk)
    (hgood₂ : GoodDraws X ks draws₂ (d.wallets.map Wallet.id) d'.disk)
    (hw : wallet ∈ d.wallets.map Wallet.id) :
    SameEnd X ks wallet d.sharedPassword (undisturbed X ks draws₁ d)
      (undisturbed X ks draws₂ d') := by
  obtain ⟨hsettled₁, hmigrated₁⟩ := undisturbed_spec hX hids hnodup hgood₁
  rw [← h.wallets] at hids hnodup hgood₂
  obtain ⟨hsettled₂, hmigrated₂⟩ := undisturbed_spec hX hids hnodup hgood₂
  rw [h.wallets, h.sharedPassword] at hsettled₂
  by_cases hlegacy : ∃ password, (wallet, password) ∈ d.legacy d.wallets
  · obtain ⟨password, hmem⟩ := hlegacy
    have hprogress := h.progress wallet password hmem
    have hfile₁ := (hmigrated₁.progress wallet password hmem).file hX
    have hresult₁ := hsettled₁.result wallet password hmem
    rcases hprogress.goal_eq hX (hone wallet hw) with ⟨halias, hgoal⟩ | ⟨halias, hgoal⟩
    · -- The wallet is still to be migrated, to where it was to be taken before.
      have hmem' : (wallet, password) ∈ d'.legacy d.wallets :=
        mem_legacy_iff.mpr ⟨halias, (mem_legacy_iff.mp hmem).2⟩
      have hresult₂ := hsettled₂.result wallet password hmem'
      rw [← h.wallets] at hmem'
      have hfile₂ := (hmigrated₂.progress wallet password hmem').file hX
      rw [h.sharedPassword] at hfile₂
      refine SameEnd.of_result_eq (hresult₁.trans (hgoal.symm.trans hresult₂.symm)) hfile₁ ?_
      rcases hfile₂ with hfile₂ | hopen
      · rw [hfile₂]
        exact hprogress.file hX
      · exact .inr hopen
    · -- The wallet has arrived.
      have hview₂ := hsettled₂.others wallet hw (not_mem_legacy halias)
      have hresult₂ : (undisturbed X ks draws₂ d').result X ks wallet d.sharedPassword =
          (none, (openView X wallet (d'.view X ks wallet).1 d.sharedPassword).toOption) := by
        rw [Device.result, hview₂, ← halias]
        exact congrArg (·, _) (congrArg Prod.snd hview₂)
      refine SameEnd.of_result_eq (hresult₁.trans (hgoal.symm.trans hresult₂.symm)) hfile₁ ?_
      rw [hview₂]
      exact hprogress.file hX
  · -- The wallet has no password of its own, and no run touches it.
    have hnot : wallet ∉ (d.legacy d.wallets).map Prod.fst := by
      intro hin
      obtain ⟨⟨w, p⟩, hmem, rfl⟩ := List.mem_map.mp hin
      exact hlegacy ⟨p, hmem⟩
    have hview := h.others wallet hw hnot
    have hnot' : wallet ∉ (d'.legacy d.wallets).map Prod.fst := by
      intro hin
      obtain ⟨⟨w, p⟩, hmem, rfl⟩ := List.mem_map.mp hin
      obtain ⟨halias, htype⟩ := mem_legacy_iff.mp hmem
      exact hlegacy ⟨p, mem_legacy_iff.mpr ⟨(congrArg Prod.snd hview).symm.trans halias, htype⟩⟩
    apply SameEnd.of_view_eq
    rw [hsettled₁.others wallet hw hnot, hsettled₂.others wallet hw hnot', hview]

end

/-- **Crash safety.** Let a run of `migrate_to_shared_password` end or break off anywhere.

* A wallet's own password is still stored, or the file opens with the shared password, or the
  two passwords are the same and it is stored as the shared one. Other wallets are untouched.
* If the run was not cut off, then reading the stores failed and nothing has changed, or each
  wallet is as its own migration alone leaves it, whatever becomes of the others.
* An undisturbed run from here ends as an undisturbed run from the start would.

**Proof sketch.** The first part is read off the progress every wallet has made. The second
holds since the migration of a wallet depends on what belongs to that wallet. For the third,
the progress made does not change where the wallet is to be taken. -/
theorem migrateToSharedPassword_crash_safe {X : Externals} (hX : X.Lawful) {ks : FileKeystore}
    {draws : WalletId → Draws} {d d' : Device} (hids : DistinctIds X (d.wallets.map Wallet.id))
    (hnodup : (d.wallets.map Wallet.id).Nodup)
    (hone : ∀ w ∈ d.wallets.map Wallet.id, ∀ bytes, (d.view X ks w).1 = some bytes →
      OneKey X bytes)
    {faults rest : List Fault} {o : Outcome String ℕ}
    (hrun : migrateToSharedPassword X ks draws d faults = (o, d', rest)) :
    (∀ wallet password, (wallet, password) ∈ d.legacy d.wallets →
      Recoverable X ks wallet password d.sharedPassword d') ∧
    (∀ wallet ∈ d.wallets.map Wallet.id, wallet ∉ (d.legacy d.wallets).map Prod.fst →
      d'.view X ks wallet = d.view X ks wallet) ∧
    (o ≠ .stopped → ((∃ e, o = .error e) ∧ d' = d) ∨
      ∀ wallet password, (wallet, password) ∈ d.legacy d.wallets →
        MigratedAlone X ks draws wallet password d.sharedPassword faults d d') ∧
    (∀ draws₁ draws₂, GoodDraws X ks draws₁ (d.wallets.map Wallet.id) d.disk →
      GoodDraws X ks draws₂ (d.wallets.map Wallet.id) d'.disk →
      ∀ wallet ∈ d.wallets.map Wallet.id, SameEnd X ks wallet d.sharedPassword
        (undisturbed X ks draws₁ d) (undisturbed X ks draws₂ d')) := by
  have hmigrated : Migrated X ks draws d d' := by
    have h := (migrateToSharedPassword_all hids hnodup).of_run hrun
    cases o <;> exact h
  refine ⟨fun wallet password hmem => ?_, hmigrated.others,
    migrateToSharedPassword_own hids hnodup hrun, fun draws₁ draws₂ hgood₁ hgood₂ wallet hw =>
    hmigrated.sameEnd hX hids hnodup hone hgood₁ hgood₂ hw⟩
  rcases (hmigrated.progress wallet password hmem).safe hX with hkept | ⟨hgone, hsafe⟩
  · exact .inl hkept
  · refine .inr ⟨hgone, ?_, hsafe⟩
    rcases hmigrated.stored with rfl | hstored
    · -- An unchanged device still has the password.
      rw [Device.view, (mem_legacy_iff.mp hmem).1] at hgone
      cases hgone
    · exact hstored

/-! ## Concrete runs -/

/-- A wallet whose keystore is the sample one. -/
def sampleWallet : WalletId := .privateKey .ethereum "0x12345678901"

/-- A wallet without a keystore file. -/
def otherWallet : WalletId := .multicoin "0x1"

/-- A device with the two wallets, each with a password of its own. -/
def sampleDevice (password shared : String) : Device where
  disk := sampleDisk
  wallets := [⟨sampleWallet, .privateKey⟩, ⟨otherWallet, .multicoin⟩]
  shared := some shared
  created := ""
  aliases := fun wallet =>
    if wallet = sampleWallet then some password
    else if wallet = otherWallet then some "05" else none

/-- The run that stops when the file has been re-encrypted and the wallet's own password is
about to be deleted. -/
def sampleRun : Outcome String ℕ × Device × List Fault :=
  migrateToSharedPassword reference sampleKeystore (fun _ => sampleDraws)
    (sampleDevice "010203" "04") (List.replicate 15 .pass ++ [.stop])

lemma goodDraws_sampleDevice (password shared : String) (wallets : List WalletId) :
    GoodDraws reference sampleKeystore (fun _ => sampleDraws) wallets
      (sampleDevice password shared).disk := by
  simp only [sampleDevice]
  exact fun _ _ => ⟨freshDraws_sampleDisk _, rfl, rfl⟩

lemma goodDraws_sampleRun :
    GoodDraws reference sampleKeystore (fun _ => sampleDraws) [sampleWallet, otherWallet]
      sampleRun.2.1.disk := by
  unfold GoodDraws
  decide +kernel

/-- The run in which deleting that password fails; it goes on to the other wallet. -/
def failedRun : Outcome String ℕ × Device × List Fault :=
  migrateToSharedPassword reference sampleKeystore (fun _ => sampleDraws)
    (sampleDevice "010203" "04") (List.replicate 15 .pass ++ [.fail "locked"])

/-- The run that stops has kept the wallet's own password, which no longer opens the file, and a
further run ends as one run would have. In the run with a failure both wallets are as their own
migrations leave them. -/
theorem migrateToSharedPassword_crash_safe_sample :
    (sampleRun.1 = .stopped ∧
      (openView reference sampleWallet
        (sampleRun.2.1.view reference sampleKeystore sampleWallet).1 "010203").toOption = none) ∧
    Recoverable reference sampleKeystore sampleWallet "010203" "04" sampleRun.2.1 ∧
    SameEnd reference sampleKeystore sampleWallet "04"
      (undisturbed reference sampleKeystore (fun _ => sampleDraws) (sampleDevice "010203" "04"))
      (undisturbed reference sampleKeystore (fun _ => sampleDraws) sampleRun.2.1) ∧
    failedRun.1 = .error "keystore privateKey_ethereum_0x12345678901: locked" ∧
    MigratedAlone reference sampleKeystore (fun _ => sampleDraws) sampleWallet "010203" "04"
      (List.replicate 15 .pass ++ [.fail "locked"]) (sampleDevice "010203" "04") failedRun.2.1 ∧
    MigratedAlone reference sampleKeystore (fun _ => sampleDraws) otherWallet "05" "04"
      (List.replicate 15 .pass ++ [.fail "locked"]) (sampleDevice "010203" "04") failedRun.2.1 := by
  have hids : DistinctIds reference [sampleWallet, otherWallet] := by
    unfold DistinctIds
    decide +kernel
  have hnodup : [sampleWallet, otherWallet].Nodup := by decide
  have hrun : migrateToSharedPassword reference sampleKeystore (fun _ => sampleDraws)
      (sampleDevice "010203" "04") (List.replicate 15 .pass ++ [.stop]) =
        (sampleRun.1, sampleRun.2.1, sampleRun.2.2) := by
    rw [sampleRun]
  have hrun' : migrateToSharedPassword reference sampleKeystore (fun _ => sampleDraws)
      (sampleDevice "010203" "04") (List.replicate 15 .pass ++ [.fail "locked"]) =
        (failedRun.1, failedRun.2.1, failedRun.2.2) := by
    rw [failedRun]
  have hfailed : failedRun.1 = .error "keystore privateKey_ethereum_0x12345678901: locked" ∧
      (openView reference sampleWallet
        (failedRun.2.1.view reference sampleKeystore sampleWallet).1 "010203").toOption ≠
      (openView reference sampleWallet ((sampleDevice "010203" "04").view reference sampleKeystore
        sampleWallet).1 "010203").toOption := by
    decide +kernel
  have hsample : (sampleWallet, "010203") ∈
      (sampleDevice "010203" "04").legacy (sampleDevice "010203" "04").wallets :=
    mem_legacy_iff.mpr ⟨rfl, _, List.mem_cons_self, rfl, by decide⟩
  have hother : (otherWallet, "05") ∈
      (sampleDevice "010203" "04").legacy (sampleDevice "010203" "04").wallets :=
    mem_legacy_iff.mpr ⟨rfl, _, List.mem_cons_of_mem _ List.mem_cons_self, rfl, by decide⟩
  obtain ⟨hsafe, -, -, hrerun⟩ := migrateToSharedPassword_crash_safe
    (d := sampleDevice "010203" "04") reference_lawful hids hnodup
    (fun _ _ bytes _ => reference_oneKey bytes) hrun
  obtain ⟨-, -, halone, -⟩ := migrateToSharedPassword_crash_safe
    (d := sampleDevice "010203" "04") reference_lawful hids hnodup
    (fun _ _ bytes _ => reference_oneKey bytes) hrun'
  refine ⟨by decide +kernel, hsafe _ _ hsample,
    hrerun _ _ (goodDraws_sampleDevice _ _ _) goodDraws_sampleRun _ List.mem_cons_self,
    hfailed.1, ?_⟩
  rcases halone (by rw [hfailed.1]; exact fun h => by cases h) with ⟨-, hsame⟩ | halone
  · exact absurd (by rw [hsame]) hfailed.2
  · exact ⟨halone _ _ hsample, halone _ _ hother⟩

/-- Two runs outside what one might expect.

* The wallet's own password equals the shared one, but the file opens with neither: the
  password is deleted all the same.
* Asking for the password of the second wallet fails: the first one, which an undisturbed run
  re-encrypts, is left as it was. -/
theorem migrateToSharedPassword_deletes_unchecked :
    (let d := sampleDevice "04" "04"
     let result := migrateToSharedPassword reference sampleKeystore (fun _ => sampleDraws) d []
     result.1 = .ok 0 ∧ result.2.1.aliases sampleWallet = none ∧
       (openView reference sampleWallet
         (result.2.1.view reference sampleKeystore sampleWallet).1 "04").toOption = none) ∧
    (let d := sampleDevice "010203" "04"
     let result := migrateToSharedPassword reference sampleKeystore (fun _ => sampleDraws) d
       [.pass, .pass, .fail "locked"]
     result.1 = .error "locked" ∧ result.2.1.aliases sampleWallet = some "010203" ∧
       (undisturbed reference sampleKeystore (fun _ => sampleDraws) d).aliases sampleWallet =
         none) := by
  decide +kernel

example : (sampleDevice "010203" "04").wallets.map (·.id.id) =
    ["privateKey_ethereum_0x12345678901", "multicoin_0x1"] := by decide +kernel

end GemCore.Keystore
