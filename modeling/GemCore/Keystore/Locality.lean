import GemCore.Keystore.SharedPassword

/-!
# Each wallet is migrated by itself

The migration of one wallet reads and writes two files and one password, all of them the
wallet's own. Two devices that agree on these are not told apart by it, so what a run over
many wallets does to one of them is what the migration of that wallet alone would have done.

## Main definitions

* `Agree`, `AgreeFor` — agreement on some files, and on what belongs to a wallet.

## Main results

* `migrateWalletPassword_respects` — the migration of a wallet depends on what belongs to that
  wallet.
* `migrateLoop_own` — in a run over many wallets each ends as it would alone.
-/

namespace GemCore.Keystore

open Lib (Proc Fault Outcome)

/-! ## Files -/

/-- The disks agree on some files. -/
def Agree (paths : List String) (disk disk' : Disk) : Prop := ∀ path ∈ paths, disk path = disk' path

lemma Agree.update {paths : List String} {disk disk' : Disk} (h : Agree paths disk disk')
    (path : String) (file : Option (List UInt8)) :
    Agree paths (Function.update disk path file) (Function.update disk' path file) := by
  intro q hq
  by_cases hqp : q = path
  · rw [hqp, Function.update_self, Function.update_self]
  · rw [Function.update_of_ne hqp, Function.update_of_ne hqp, h q hq]

section Files

variable {X : Externals} {ks : FileKeystore} {paths : List String}

/-- A call that does nothing. -/
lemma fsCall_skip_respects :
    (fsCall fun disk => .ok ((), disk)).Respects (Agree paths) :=
  Proc.Respects.call fun _ _ h => .inr ⟨(), _, _, rfl, rfl, h⟩

/-- A call on one file, which must be there. -/
lemma fsCall_present_respects {α : Type} {path : String} (hp : path ∈ paths)
    {f : List UInt8 → Disk → Except KeystoreError (α × Disk)}
    (hf : ∀ bytes disk disk', Agree paths disk disk' →
      (∃ e, f bytes disk = .error e ∧ f bytes disk' = .error e) ∨
      ∃ a disk₁ disk₁', f bytes disk = .ok (a, disk₁) ∧ f bytes disk' = .ok (a, disk₁') ∧
        Agree paths disk₁ disk₁') :
    (fsCall fun disk =>
      match disk path with
      | some bytes => f bytes disk
      | none => .error .notFound).Respects (Agree paths) := by
  refine Proc.Respects.call fun disk disk' h => ?_
  simp only [h path hp]
  cases disk' path with
  | none => exact .inl ⟨_, rfl, rfl⟩
  | some bytes => exact hf bytes disk disk' h

lemma pathExists_respects {path : String} (hp : path ∈ paths) :
    (pathExists path).Respects (Agree paths) :=
  Proc.Respects.read fun _ _ h => congrArg Option.isSome (h path hp)

lemma createNew_respects {path : String} (hp : path ∈ paths) :
    (createNew path).Respects (Agree paths) := by
  refine Proc.Respects.call fun disk disk' h => ?_
  simp only [h path hp]
  cases disk' path with
  | none => exact .inr ⟨(), _, _, rfl, rfl, h.update _ _⟩
  | some bytes => exact .inl ⟨_, rfl, rfl⟩

lemma writeAll_respects (path : String) (bytes : List UInt8) :
    (writeAll path bytes).Respects (Agree paths) :=
  Proc.Respects.call fun _ _ h => .inr ⟨(), _, _, rfl, rfl, h.update _ _⟩

lemma rename_respects {source : String} (target : String) (hs : source ∈ paths) :
    (rename source target).Respects (Agree paths) :=
  fsCall_present_respects hs fun _ _ _ h =>
    .inr ⟨(), _, _, rfl, rfl, (h.update _ _).update _ _⟩

lemma setOwnerReadWrite_respects {path : String} (hp : path ∈ paths) :
    (setOwnerReadWrite path).Respects (Agree paths) :=
  fsCall_present_respects hp fun _ _ _ h => .inr ⟨(), _, _, rfl, rfl, h⟩

lemma removeFile_respects {path : String} (hp : path ∈ paths) :
    (removeFile path).Respects (Agree paths) :=
  fsCall_present_respects hp fun _ _ _ h => .inr ⟨(), _, _, rfl, rfl, h.update _ _⟩

lemma readCapped_respects {path : String} (cap : ℕ) (hp : path ∈ paths) :
    (readCapped path cap).Respects (Agree paths) := by
  refine fsCall_present_respects hp fun bytes disk disk' h => ?_
  split
  · exact .inl ⟨_, rfl, rfl⟩
  · exact .inr ⟨bytes, _, _, rfl, rfl, h⟩

/-! ## Operations of the keystore -/

/-- Staging depends on the target and the staging file. -/
lemma writeNewFile_respects {draws : Draws} {id : KeystoreId} (bytes : List UInt8)
    (replace : Bool) (hp : ks.pathForId id ∈ paths)
    (ht : ks.tempPath id draws.tempId ∈ paths) :
    (writeNewFile ks draws id bytes replace).Respects (Agree paths) := by
  have hstage : (stageFile (ks.tempPath id draws.tempId) (ks.pathForId id) bytes).Respects
      (Agree paths) := by
    refine (createNew_respects ht).bind fun _ => ?_
    refine (setOwnerReadWrite_respects ht).bind fun _ => ?_
    refine (writeAll_respects _ _).bind fun _ => ?_
    refine fsCall_skip_respects.bind fun _ => ?_
    exact (rename_respects _ ht).bind fun _ => fsCall_skip_respects
  refine fsCall_skip_respects.bind fun _ => ?_
  refine (pathExists_respects hp).bind fun present => ?_
  split
  · exact .throw _
  · refine hstage.attempt.bind fun result => ?_
    cases result with
    | ok _ => exact .pure _
    | error e => exact (removeFile_respects ht).attempt.bind fun _ => .throw e

lemma readParsedById_respects {id : KeystoreId} (hp : ks.pathForId id ∈ paths) :
    (readParsedById X ks id).Respects (Agree paths) :=
  (readCapped_respects _ hp).bind fun _ => .ofExcept _

lemma verifyUnlocked_respects {id : KeystoreId} (password : List UInt8)
    (hp : ks.pathForId id ∈ paths) :
    (verifyUnlocked X ks id.value password).Respects (Agree paths) := by
  rw [verifyUnlocked, KeystoreId.parse_value, Proc.ofExcept_ok_bind]
  refine (readParsedById_respects hp).bind fun parsed => ?_
  exact (Proc.Respects.ofExcept _).bind fun _ => .pure _

lemma getMetaUnlocked_respects {id : KeystoreId} (hp : ks.pathForId id ∈ paths) :
    (getMetaUnlocked X ks id.value).Respects (Agree paths) := by
  rw [getMetaUnlocked, KeystoreId.parse_value, Proc.ofExcept_ok_bind]
  refine (pathExists_respects hp).bind fun present => ?_
  split
  · exact .pure _
  · refine (readCapped_respects _ hp).bind fun bytes => ?_
    exact (Proc.Respects.ofExcept _).bind fun _ => .pure _

lemma changePassword_respects {draws : Draws} {id : KeystoreId}
    (oldPassword newPassword : List UInt8) (hp : ks.pathForId id ∈ paths)
    (ht : ks.tempPath id draws.tempId ∈ paths) :
    (changePassword X ks draws id.value oldPassword newPassword).Respects (Agree paths) := by
  rw [changePassword, KeystoreId.parse_value]
  refine (Proc.Respects.ofExcept _).bind fun _ => ?_
  rw [Proc.ofExcept_ok_bind]
  refine (readParsedById_respects hp).bind fun parsed => ?_
  refine (Proc.Respects.ofExcept _).bind fun payload => ?_
  refine (Proc.Respects.ofExcept _).bind fun body => ?_
  exact (writeNewFile_respects _ _ hp ht).bind fun _ => .pure _

end Files

/-! ## The migration of one wallet -/

section Wallet

variable (X : Externals) (ks : FileKeystore) (draws : WalletId → Draws)

/-- The files the migration of a wallet works with. -/
def walletPaths (wallet : WalletId) : List String :=
  [walletPath X ks wallet, ks.tempPath (keystoreIdForWallet X wallet) (draws wallet).tempId]

/-- The devices agree on what belongs to a wallet. -/
structure AgreeFor (wallet : WalletId) (d d' : Device) : Prop where
  disk : Agree (walletPaths X ks draws wallet) d.disk d'.disk
  aliases : d.aliases wallet = d'.aliases wallet

variable {X ks draws} {wallet : WalletId}

lemma AgreeFor.view_eq {d d' : Device} (h : AgreeFor X ks draws wallet d d') :
    d.view X ks wallet = d'.view X ks wallet :=
  Prod.ext (h.disk _ List.mem_cons_self) h.aliases

lemma onDisk_respects {α : Type} {x : Io α}
    (hx : x.Respects (Agree (walletPaths X ks draws wallet))) :
    (onDisk x).Respects (AgreeFor X ks draws wallet) := by
  apply Proc.Respects.attempt
  apply hx.zoom
  · exact fun _ _ h => h.disk
  · exact fun _ _ _ _ h hdisk => ⟨hdisk, h.aliases⟩

lemma keystoreExists_respects :
    (keystoreExists X ks (keystoreIdForWallet X wallet)).Respects (AgreeFor X ks draws wallet) := by
  refine (onDisk_respects (getMetaUnlocked_respects List.mem_cons_self)).bind fun result => ?_
  rcases result with e | _ | found <;> exact .pure _

lemma opensWith_respects (password : List UInt8) :
    (opensWith X ks (keystoreIdForWallet X wallet) password).Respects
      (AgreeFor X ks draws wallet) := by
  refine (onDisk_respects (verifyUnlocked_respects _ List.mem_cons_self)).bind fun result => ?_
  rcases result with e | found <;> exact .pure _

lemma rekeyWallet_respects (password shared : String) :
    (rekeyWallet X ks draws wallet password shared).Respects (AgreeFor X ks draws wallet) := by
  refine (onDisk_respects (changePassword_respects _ _ List.mem_cons_self
    (List.mem_cons_of_mem _ List.mem_cons_self))).bind fun result => ?_
  cases result with
  | error e => exact .throw _
  | ok found =>
    refine (opensWith_respects _).bind fun opens => ?_
    split
    · exact .throw _
    · exact .pure _

lemma needsRekey_respects (password shared : String) :
    (needsRekey X ks wallet password shared).Respects (AgreeFor X ks draws wallet) := by
  rw [needsRekey]
  split
  · exact .pure _
  · exact (opensWith_respects _).bind fun _ => .pure _

lemma deleteWalletPassword_respects :
    (deleteWalletPassword wallet).Respects (AgreeFor X ks draws wallet) := by
  refine Proc.Respects.call fun d d' h => .inr ⟨(), _, _, rfl, rfl, h.disk, ?_⟩
  show Function.update d.aliases wallet none wallet = Function.update d'.aliases wallet none wallet
  rw [Function.update_self, Function.update_self]

/-- The migration of a wallet does not tell apart devices that agree on what belongs to it. -/
theorem migrateWalletPassword_respects (password shared : String) :
    (migrateWalletPassword X ks draws wallet password shared).Respects
      (AgreeFor X ks draws wallet) := by
  refine keystoreExists_respects.bind fun present => ?_
  split
  · exact .pure _
  · refine (needsRekey_respects _ _).bind fun rekeyed => ?_
    have hdelete : (do
        deleteWalletPassword wallet
        pure rekeyed : ServiceIo Bool).Respects (AgreeFor X ks draws wallet) :=
      deleteWalletPassword_respects.bind fun _ => .pure _
    split
    · exact (rekeyWallet_respects _ _).bind fun _ => hdelete
    · exact (Proc.Respects.pure ()).bind fun _ => hdelete

/-! ## The loop -/

variable {d d' : Device} {faults rest : List Fault} {password shared : String}

/-- Different ids have different staging files. -/
lemma tempPath_injective {id id' tempId tempId' : KeystoreId}
    (h : ks.tempPath id tempId = ks.tempPath id' tempId') : id = id' := by
  have hl := congrArg String.toList h
  simp only [FileKeystore.tempPath, FileKeystore.join, String.toList_append,
    List.append_assoc, List.append_cancel_left_eq] at hl
  have hlen : id.value.toList.length = id'.value.toList.length := by
    rw [id.length_value, id'.length_value]
  exact KeystoreId.ext (String.toList_inj.mp (List.append_inj_left hl hlen))

/-- Work on one wallet leaves what belongs to another. -/
lemma Frame.agreeFor {wallets : List WalletId} (hids : DistinctIds X wallets)
    {other : WalletId} (h : Frame X ks draws other d d') (hw : wallet ∈ wallets)
    (hother : other ∈ wallets) (hne : wallet ≠ other) : AgreeFor X ks draws wallet d' d := by
  have hid : keystoreIdForWallet X wallet ≠ keystoreIdForWallet X other :=
    fun heq => hne (hids _ hw _ hother heq)
  refine ⟨fun path hpath => ?_, h.aliases wallet hne⟩
  rcases List.mem_cons.mp hpath with rfl | hpath
  · exact h.disk _ (fun heq => hid (pathForId_injective ks heq)) (tempPath_ne_pathForId _ _ _ _)
  · obtain rfl := List.mem_singleton.mp hpath
    exact h.disk _ (tempPath_ne_pathForId _ _ _ _).symm fun heq => hid (tempPath_injective heq)

/-- A run of the loop that is not cut off runs the migration of the first wallet to its end
and goes on from there, whether it succeeded or not. -/
theorem migrateLoop_cons {legacy : List (WalletId × String)} {o : Outcome String (ℕ × List String)}
    (hrun : migrateLoop X ks draws shared ((wallet, password) :: legacy) d faults = (o, d', rest))
    (ho : o ≠ .stopped) :
    ∃ o₁ d₁ rest₁ o₂, migrateWalletPassword X ks draws wallet password shared d faults =
        (o₁, d₁, rest₁) ∧ o₁ ≠ .stopped ∧
      migrateLoop X ks draws shared legacy d₁ rest₁ = (o₂, d', rest) ∧ o₂ ≠ .stopped := by
  rw [migrateLoop, Proc.bind_apply, Proc.attempt] at hrun
  rcases hfirst : migrateWalletPassword X ks draws wallet password shared d faults with
    ⟨_ | _ | _, d₁, rest₁⟩
  case stopped =>
    rw [hfirst] at hrun
    exact absurd (congrArg Prod.fst hrun).symm ho
  all_goals
    rw [hfirst] at hrun
    simp only [Proc.bind_apply] at hrun
    rcases htail : migrateLoop X ks draws shared legacy d₁ rest₁ with ⟨_ | _ | _, d₂, rest₂⟩
    all_goals
      rw [htail] at hrun
      obtain ⟨hfst, hsnd⟩ := Prod.ext_iff.mp hrun
      obtain ⟨hd', hrest⟩ := Prod.ext_iff.mp hsnd
      obtain rfl : d₂ = d' := hd'
      obtain rfl : rest₂ = rest := hrest
    case stopped => exact absurd hfst.symm ho
    all_goals exact ⟨_, _, _, _, rfl, fun h => (by cases h), htail, fun h => (by cases h)⟩

/-- Where the loop goes on after a first wallet that was migrated to its end. -/
lemma migrateLoop_cons_rest {legacy : List (WalletId × String)} {o : Outcome String Bool}
    (hfirst : migrateWalletPassword X ks draws wallet password shared d faults = (o, d', rest))
    (ho : o ≠ .stopped) :
    (migrateLoop X ks draws shared ((wallet, password) :: legacy) d faults).2 =
      (migrateLoop X ks draws shared legacy d' rest).2 := by
  rw [migrateLoop, Proc.bind_apply, Proc.attempt, hfirst]
  cases o with
  | stopped => exact absurd rfl ho
  | ok _ | error _ =>
    simp only [Proc.bind_apply]
    rcases migrateLoop X ks draws shared legacy d' rest with ⟨_ | _ | _, d₂, rest₂⟩ <;> rfl

/-- **Independence.** In a run of the loop that is not cut off, each wallet ends as the
migration of that wallet alone leaves it, from the device the run began with and with the
outcomes that its own calls have in the run: those after the wallets before it.

**Proof sketch.** Induction on the wallets. The first one is migrated from the device itself,
and the others leave it; the device the others start from agrees with the first one on what
belongs to them. -/
theorem migrateLoop_own {wallets : List WalletId} (hids : DistinctIds X wallets)
    {legacy : List (WalletId × String)} (hsub : ∀ w ∈ legacy.map Prod.fst, w ∈ wallets)
    (hnodup : (legacy.map Prod.fst).Nodup)
    (halias : ∀ wallet password, (wallet, password) ∈ legacy → d.aliases wallet = some password)
    {o : Outcome String (ℕ × List String)}
    (hrun : migrateLoop X ks draws shared legacy d faults = (o, d', rest)) (ho : o ≠ .stopped)
    (hmem : (wallet, password) ∈ legacy) :
    let own := (migrateLoop X ks draws shared (legacy.takeWhile (·.1 ≠ wallet)) d faults).2.2
    let alone := migrateWalletPassword X ks draws wallet password shared d own
    alone.1 ≠ .stopped ∧ d'.view X ks wallet = alone.2.1.view X ks wallet := by
  induction legacy generalizing d faults o with
  | nil => cases hmem
  | cons entry legacy ih =>
    obtain ⟨first, firstPassword⟩ := entry
    obtain ⟨hnot, hnodup'⟩ := List.nodup_cons.mp hnodup
    obtain ⟨o₁, d₁, rest₁, o₂, hfirst, ho₁, htail, ho₂⟩ := migrateLoop_cons hrun ho
    have hmoved : Moved X ks draws first firstPassword shared d d₁ := by
      have h := (migrateWalletPassword_all (halias _ _ List.mem_cons_self)).of_run hfirst
      cases o₁ <;> exact h
    have hsub' : ∀ w ∈ legacy.map Prod.fst, w ∈ wallets :=
      fun w hw => hsub w (List.mem_cons_of_mem _ hw)
    have hrest (w : WalletId) (p : String) (hin : (w, p) ∈ legacy) : d₁.aliases w = some p := by
      have hin' : w ∈ legacy.map Prod.fst := List.mem_map.mpr ⟨(w, p), hin, rfl⟩
      rw [hmoved.1.aliases w fun heq => hnot (heq ▸ hin')]
      exact halias w p (List.mem_cons_of_mem _ hin)
    rcases List.mem_cons.mp hmem with heq | hin
    · obtain ⟨rfl, rfl⟩ := Prod.mk.inj heq
      rw [List.takeWhile_cons_of_neg (by simp)]
      show (migrateWalletPassword X ks draws wallet password shared d faults).1 ≠ .stopped ∧
        d'.view X ks wallet = Device.view X ks
          (migrateWalletPassword X ks draws wallet password shared d faults).2.1 wallet
      rw [hfirst]
      refine ⟨ho₁, ?_⟩
      have h := (migrateLoop_all hids shared legacy hsub' hnodup' hrest).of_run htail
      have hadvanced : Advanced X ks draws wallets shared legacy d₁ d' := by
        cases o₂ with
        | ok _ => exact h
        | error _ => exact h.elim
        | stopped => exact h
      exact hadvanced.others wallet (hsub _ List.mem_cons_self) hnot
    · have hin' : wallet ∈ legacy.map Prod.fst := List.mem_map.mpr ⟨_, hin, rfl⟩
      have hne : first ≠ wallet := fun heq => hnot (heq ▸ hin')
      obtain ⟨ho₃, hview⟩ := ih hsub' hnodup' hrest htail ho₂ hin
      have hagree : AgreeFor X ks draws wallet d₁ d :=
        hmoved.1.agreeFor hids (hsub _ (List.mem_cons_of_mem _ hin')) (hsub _ List.mem_cons_self)
          hne.symm
      rw [List.takeWhile_cons_of_pos (by simpa using hne), migrateLoop_cons_rest hfirst ho₁]
      obtain ⟨h₁, h₂, -⟩ := migrateWalletPassword_respects password shared d₁ d hagree
        (migrateLoop X ks draws shared (legacy.takeWhile (·.1 ≠ wallet)) d₁ rest₁).2.2
      exact ⟨fun h => ho₃ (h₁.trans h), hview.trans h₂.view_eq⟩

end Wallet

end GemCore.Keystore
