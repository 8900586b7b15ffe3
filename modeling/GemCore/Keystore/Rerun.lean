import GemCore.Keystore.SharedPassword
import GemCore.Keystore.Import

/-!
# Running the shared-password migration again

Where the migration of `SharedPassword` is to take each wallet is stated without reference to
its steps (`goal`). An undisturbed run takes every wallet there, and a run that breaks off
anywhere leaves every wallet in a state from which it is still to be taken to the same place.

## Main definitions

* `goal` — where the migration takes a wallet.
* `Device.result` — where a wallet is.

## Main results

* `Progress.goal_eq` — a run that breaks off does not change the goal.
* `migrateToSharedPassword_quiet` — an undisturbed run reaches the goal of every wallet.
-/

namespace GemCore.Keystore

open Lib (Proc)

/-! ## Where a wallet is taken -/

/-- Some draw seals the secret with the shared password. -/
def Sealable (X : Externals) (ks : FileKeystore) (wallet : WalletId) (shared : String)
    (payload : SecretPayload) : Prop :=
  ∃ draws bytes, encryptSecret X draws ks.defaultKdf payload (decodePassword shared)
    (keystoreIdForWallet X wallet) = .ok bytes

open Classical in
/-- The own password of a wallet, and the secret its file gives under the shared one, when the
migration is through with it. A file that cannot be read, or neither opens with the shared
password nor can be sealed with it, is left with its password. -/
noncomputable def goal (X : Externals) (ks : FileKeystore) (wallet : WalletId)
    (password shared : String) (file : Option (List UInt8)) :
    Option String × Option SecretPayload :=
  if ¬Present X wallet file then (some password, none)
  else if password = shared ∨ ∃ payload, openView X wallet file shared = .ok payload then
    (none, (openView X wallet file shared).toOption)
  else if ∃ payload, openView X wallet file password = .ok payload ∧
      Sealable X ks wallet shared payload then
    (none, (openView X wallet file password).toOption)
  else (some password, none)

/-- The own password of a wallet, and the secret its file gives under the shared one. -/
def Device.result (X : Externals) (ks : FileKeystore) (d : Device) (wallet : WalletId)
    (shared : String) : Option String × Option SecretPayload :=
  (d.aliases wallet, (openView X wallet (d.view X ks wallet).1 shared).toOption)

section Goal

variable {X : Externals} {ks : FileKeystore} {draws : WalletId → Draws} {wallet : WalletId}
  {password shared : String} {file file' : Option (List UInt8)}

/-- A file that opens is there and can be read. -/
lemma present_of_openView {payload : SecretPayload}
    (h : openView X wallet file password = .ok payload) : Present X wallet file := by
  cases file with
  | none => cases h
  | some bytes =>
    obtain ⟨hcap, parsed, hparsed, hdec⟩ := openFile_eq_ok_iff.mp h
    obtain ⟨hid, -⟩ := decryptSecret_eq_ok_iff.mp hdec
    refine ⟨bytes, metaFromHeader parsed.header, rfl, hcap, ?_⟩
    rw [parsedMeta, hparsed, Lib.ok_bind, if_neg (by simpa using hid)]

lemma toOption_openView (h : ¬∃ payload, openView X wallet file shared = .ok payload) :
    (openView X wallet file shared).toOption = none := by
  cases ho : openView X wallet file shared with
  | error e => rfl
  | ok payload => exact absurd ⟨payload, ho⟩ h

/-- A re-encrypted file opens with the shared password. -/
lemma Rekeyed.opens (hX : X.Lawful) (h : Rekeyed X ks draws wallet password shared file file') :
    ∃ payload, openView X wallet file password = .ok payload ∧
      Sealable X ks wallet shared payload ∧ openView X wallet file' shared = .ok payload := by
  obtain ⟨-, payload, bytes, hopen, hbytes, rfl⟩ := h
  exact ⟨payload, hopen, ⟨_, bytes, hbytes⟩, (openFile_encryptSecret hX hbytes).1⟩

/-- The goal of a wallet whose file opens with the shared password. -/
lemma goal_of_opens {payload : SecretPayload}
    (h : openView X wallet file shared = .ok payload) :
    goal X ks wallet password shared file = (none, some payload) := by
  rw [goal, if_neg (not_not.mpr (present_of_openView h)), if_pos (.inr ⟨payload, h⟩), h]
  rfl

/-- The goal of a wallet whose file can be re-encrypted. Here the cipher must be ideal: had
the file opened with the shared password as well, then to the same secret. -/
theorem goal_of_rekeyed (hX : X.Lawful) (hone : ∀ bytes, file = some bytes → OneKey X bytes)
    (h : Rekeyed X ks draws wallet password shared file file') {payload : SecretPayload}
    (hpayload : openView X wallet file' shared = .ok payload) :
    goal X ks wallet password shared file = (none, some payload) := by
  obtain ⟨payload', hopen, hseal, hopen'⟩ := h.opens hX
  obtain rfl : payload' = payload := by simpa [hopen'] using hpayload
  by_cases hs : ∃ held, openView X wallet file shared = .ok held
  · obtain ⟨held, hheld⟩ := hs
    have heq : held = payload' := by
      cases file with
      | none => cases hheld
      | some bytes => exact openFile_unique (hone bytes rfl) hheld hopen
    rw [goal_of_opens hheld, heq]
  · rw [goal, if_neg (not_not.mpr (present_of_openView hopen)),
      if_neg (not_or.mpr ⟨h.1, hs⟩), if_pos ⟨payload', hopen, hseal⟩, hopen]
    rfl

/-- A run that broke off has left the wallet where it is still to be taken to the same place,
or has taken it there. -/
theorem Progress.goal_eq (hX : X.Lawful) {view view' : Option (List UInt8) × Option String}
    (hone : ∀ bytes, view.1 = some bytes → OneKey X bytes)
    (h : Progress X ks draws wallet password shared view view') :
    (view'.2 = some password ∧
      goal X ks wallet password shared view'.1 = goal X ks wallet password shared view.1) ∨
    (view'.2 = none ∧
      (none, (openView X wallet view'.1 shared).toOption) =
        goal X ks wallet password shared view.1) := by
  cases h with
  | untouched file => exact .inl ⟨rfl, rfl⟩
  | rekeyed hp h =>
    obtain ⟨payload, -, -, hopen⟩ := h.opens hX
    left
    exact ⟨rfl, by rw [goal_of_opens hopen, goal_of_rekeyed hX hone h hopen]⟩
  | done hp hopen =>
    right
    exact ⟨rfl, by rw [goal_of_opens hopen, hopen]; rfl⟩
  | same hp heq =>
    right
    refine ⟨rfl, ?_⟩
    rw [goal, if_neg (not_not.mpr hp), if_pos (.inl heq)]
  | rekeyedDone hp h =>
    obtain ⟨payload, -, -, hopen⟩ := h.opens hX
    right
    exact ⟨rfl, by rw [goal_of_rekeyed hX hone h hopen, hopen]; rfl⟩

/-- A password that is gone was the shared one, or the file opens with that. -/
theorem Progress.safe (hX : X.Lawful) {view view' : Option (List UInt8) × Option String}
    (h : Progress X ks draws wallet password shared view view') :
    view'.2 = some password ∨ (view'.2 = none ∧ (password = shared ∨
      ∃ payload, openView X wallet view'.1 shared = .ok payload)) := by
  cases h with
  | untouched file | rekeyed hp h => exact .inl rfl
  | done hp hopen => exact .inr ⟨rfl, .inr ⟨_, hopen⟩⟩
  | same hp heq => exact .inr ⟨rfl, .inl heq⟩
  | rekeyedDone hp h =>
    obtain ⟨payload, -, -, hopen⟩ := h.opens hX
    exact .inr ⟨rfl, .inr ⟨payload, hopen⟩⟩

end Goal

/-! ## The undisturbed run of one wallet -/

section Quiet

variable {X : Externals} {ks : FileKeystore} {draws : WalletId → Draws} {d : Device}
  {wallet : WalletId} {password shared : String}

/-- The rule for an undisturbed file-system call. -/
lemma fsCall_quiet {α : Type} {disk : Disk} {f : Disk → Except KeystoreError (α × Disk)}
    {Q : α → Disk → Prop} {E : KeystoreError → Disk → Prop}
    (hQ : ∀ a disk', f disk = .ok (a, disk') → Q a disk') (hE : ∀ e, f disk = .error e → E e disk) :
    (fsCall f).Quiet disk Q E :=
  Proc.Quiet.call hQ hE

/-- The rule for an undisturbed call of a store. -/
lemma storeCall_quiet {α : Type} {f : Device → α × Device} {Q : α → Device → Prop}
    {E : String → Device → Prop} (h : Q (f d).1 (f d).2) : (storeCall f).Quiet d Q E := by
  refine Proc.Quiet.call (fun a d' hf => ?_) fun e hf => ?_
  · obtain ⟨rfl, rfl⟩ : (f d).1 = a ∧ (f d).2 = d' := Prod.ext_iff.mp (Except.ok.inj hf)
    exact h
  · cases hf

/-- Undisturbed, `write_new_file` replaces the file. -/
lemma writeNewFile_quiet {draws : Draws} {disk : Disk} {id : KeystoreId} {bytes : List UInt8}
    (hfresh : disk (ks.tempPath id draws.tempId) = none) {E : KeystoreError → Disk → Prop} :
    (writeNewFile ks draws id bytes true).Quiet disk
      (fun _ disk' => disk' = Function.update disk (ks.pathForId id) (some bytes)) E := by
  have hne := tempPath_ne_pathForId ks id draws.tempId id
  apply Proc.Quiet.bind
  refine fsCall_quiet (fun _ disk₁ h₁ => ?_) (fun e h => by cases h)
  obtain rfl : disk = disk₁ := by simpa using h₁
  apply Proc.Quiet.bind
  apply Proc.Quiet.read
  rw [if_neg (by simp)]
  apply Proc.Quiet.bind
  apply Proc.Quiet.attempt
  -- Creating, writing and renaming the staging file, call by call.
  apply Proc.Quiet.bind
  refine fsCall_quiet (fun _ disk₁ h₁ => ?_) (fun e h => by simp [hfresh] at h)
  obtain rfl : Function.update disk (ks.tempPath id draws.tempId) (some []) = disk₁ := by
    simpa [hfresh] using h₁
  apply Proc.Quiet.bind
  refine fsCall_quiet (fun _ disk₂ h₂ => ?_) (fun e h => by simp at h)
  obtain rfl : Function.update disk (ks.tempPath id draws.tempId) (some []) = disk₂ := by
    simpa using h₂
  apply Proc.Quiet.bind
  refine fsCall_quiet (fun _ disk₃ h₃ => ?_) (fun e h => by cases h)
  obtain rfl : Function.update disk (ks.tempPath id draws.tempId) (some bytes) = disk₃ := by
    simpa using h₃
  apply Proc.Quiet.bind
  refine fsCall_quiet (fun _ disk₄ h₄ => ?_) (fun e h => by cases h)
  obtain rfl : Function.update disk (ks.tempPath id draws.tempId) (some bytes) = disk₄ := by
    simpa using h₄
  apply Proc.Quiet.bind
  refine fsCall_quiet (fun _ disk₅ h₅ => ?_) (fun e h => by simp at h)
  refine fsCall_quiet (fun _ disk₆ h₆ => ?_) (fun e h => by cases h)
  refine Proc.Quiet.pure ?_
  obtain rfl : disk₅ = disk₆ := by simpa using h₆
  have h₅' : disk₅ = Function.update (Function.update (Function.update disk
      (ks.tempPath id draws.tempId) (some bytes)) (ks.pathForId id) (some bytes))
      (ks.tempPath id draws.tempId) none := by
    simpa [eq_comm] using h₅
  rw [h₅', Function.update_comm hne, Function.update_idem, ← hfresh, Function.update_eq_self]

/-- Undisturbed, reading and parsing the file of an id fails only if it does not open. -/
theorem readParsedById_quiet {disk : Disk} (id : KeystoreId) :
    (readParsedById X ks id).Quiet disk
      (fun parsed disk' => disk' = disk ∧ ∃ bytes, disk (ks.pathForId id) = some bytes ∧
        bytes.length ≤ wholeFileCap ∧ parseV4 X bytes = .ok parsed)
      (fun _ disk' => disk' = disk ∧
        ∀ password payload, disk.openId X ks id password ≠ .ok payload) := by
  apply Proc.Quiet.bind
  refine fsCall_quiet (fun bytes disk' h => ?_) (fun e h => ⟨rfl, fun password payload => ?_⟩)
  · split at h
    · rename_i content hcontent
      split at h
      · cases h
      · rename_i hcap
        obtain ⟨rfl, rfl⟩ : content = bytes ∧ disk = disk' := by simpa using h
        refine Proc.Quiet.ofExcept
          (fun parsed hparsed => ⟨rfl, content, hcontent, Nat.not_lt.mp hcap, hparsed⟩)
          fun e he => ⟨rfl, fun password payload hopen => ?_⟩
        simp [Disk.openId, hcontent, openFile, hcap, he, bind, Except.bind] at hopen
    · cases h
  · intro hopen
    rw [Disk.openId] at hopen
    split at h
    · rename_i content hcontent
      simp only [hcontent] at hopen
      split at h
      · rename_i hcap
        rw [openFile, if_pos hcap] at hopen
        cases hopen
      · cases h
    · rename_i hcontent
      simp only [hcontent] at hopen
      cases hopen

/-- Undisturbed, `exists` says whether the file can be read. -/
lemma keystoreExists_quiet {E : String → Device → Prop} :
    (keystoreExists X ks (keystoreIdForWallet X wallet)).Quiet d
      (fun present d' => d' = d ∧ (present = true ↔ Present X wallet (d.view X ks wallet).1))
      E := by
  apply Proc.Quiet.bind
  apply Proc.Quiet.attempt
  apply Proc.Quiet.zoom
  rw [getMetaUnlocked, KeystoreId.parse_value]
  apply Proc.Quiet.bind
  refine Proc.Quiet.ofExcept ?_ (fun e h => by cases h)
  rintro _ ⟨⟩
  apply Proc.Quiet.bind
  apply Proc.Quiet.read
  cases hfile : d.disk (walletPath X ks wallet) with
  | none =>
    rw [if_pos (by simpa [walletPath] using hfile)]
    refine Proc.Quiet.pure (Proc.Quiet.pure ⟨rfl, ?_⟩)
    simp [Device.view, hfile, Present]
  | some bytes =>
    rw [if_neg (by rw [walletPath] at hfile; simp [hfile])]
    have hno (h : ∀ found, ¬(bytes.length ≤ wholeFileCap ∧
        parsedMeta X bytes (keystoreIdForWallet X wallet) = .ok found)) :
        ¬Present X wallet (d.view X ks wallet).1 := by
      rintro ⟨bytes', found, hbytes', hcap, hfound⟩
      obtain rfl : bytes = bytes' := by simpa [Device.view, hfile] using hbytes'
      exact h found ⟨hcap, hfound⟩
    rw [walletPath] at hfile
    apply Proc.Quiet.bind
    refine fsCall_quiet (fun content disk' h => ?_) (fun e h => ?_)
    · simp only [hfile] at h
      split at h
      · cases h
      · rename_i hcap
        obtain ⟨rfl, rfl⟩ : bytes = content ∧ d.disk = disk' := by simpa using h
        apply Proc.Quiet.bind
        refine Proc.Quiet.ofExcept (fun found hfound => ?_) fun e he => ?_
        · refine Proc.Quiet.pure (Proc.Quiet.pure ⟨rfl, fun _ => ?_, fun _ => rfl⟩)
          exact ⟨bytes, found, hfile, Nat.not_lt.mp hcap, hfound⟩
        · refine Proc.Quiet.pure ⟨rfl, fun h => (by cases h), fun h => absurd h (hno ?_)⟩
          simp [he]
    · simp only [hfile] at h
      split at h
      · rename_i hcap
        refine Proc.Quiet.pure ⟨rfl, fun h => (by cases h), fun h => absurd h (hno ?_)⟩
        exact fun found h => absurd h.1 (Nat.not_le.mpr hcap)
      · cases h

/-- Undisturbed, `opens_with` says whether the file opens. -/
lemma opensWith_quiet {E : String → Device → Prop} :
    (opensWith X ks (keystoreIdForWallet X wallet) (decodePassword password)).Quiet d
      (fun opens d' => d' = d ∧ (opens = true ↔
        ∃ payload, openView X wallet (d.view X ks wallet).1 password = .ok payload)) E := by
  apply Proc.Quiet.bind
  apply Proc.Quiet.attempt
  apply Proc.Quiet.zoom
  rw [verifyUnlocked, KeystoreId.parse_value]
  apply Proc.Quiet.bind
  refine Proc.Quiet.ofExcept ?_ (fun e h => by cases h)
  rintro _ ⟨⟩
  apply Proc.Quiet.bind
  apply (readParsedById_quiet _).mono
  · rintro parsed disk' ⟨hdisk', bytes, hbytes, hcap, hparsed⟩
    have hopen := openId_of_parsed hbytes hcap hparsed (decodePassword password)
    rw [hdisk']
    apply Proc.Quiet.bind
    refine Proc.Quiet.ofExcept (fun payload h => ?_) fun e h => ?_
    · exact Proc.Quiet.pure (Proc.Quiet.pure ⟨rfl, fun _ => ⟨payload, hopen.trans h⟩, fun _ => rfl⟩)
    · refine Proc.Quiet.pure ⟨rfl, fun h => (by cases h), ?_⟩
      rintro ⟨payload, hpayload⟩
      have := hopen.symm.trans hpayload
      rw [h] at this
      cases this
  · rintro e disk' ⟨rfl, hnot⟩
    refine Proc.Quiet.pure ⟨rfl, fun h => (by cases h), ?_⟩
    rintro ⟨payload, hpayload⟩
    exact absurd hpayload (hnot _ _)

/-- Undisturbed, `change_password` re-encrypts the file or leaves it, and leaves it only if
its secret cannot be sealed. -/
theorem changePassword_quiet {draws : Draws} {disk : Disk} {id : KeystoreId}
    {oldPassword newPassword : List UInt8}
    (hfresh : disk (ks.tempPath id draws.tempId) = none) :
    (changePassword X ks draws id.value oldPassword newPassword).Quiet disk
      (fun _ disk' => ∃ payload bytes, disk.openId X ks id oldPassword = .ok payload ∧
        encryptSecret X draws ks.defaultKdf payload newPassword id = .ok bytes ∧
        disk' = Function.update disk (ks.pathForId id) (some bytes))
      (fun _ disk' => disk' = disk ∧ ∀ payload, disk.openId X ks id oldPassword = .ok payload →
        ∀ bytes, encryptSecret X draws ks.defaultKdf payload newPassword id ≠ .ok bytes) := by
  rw [changePassword, KeystoreId.parse_value]
  apply Proc.Quiet.bind
  refine Proc.Quiet.ofExcept (fun _ _ => ?_) fun e he => ⟨rfl, fun payload _ bytes h => ?_⟩
  swap
  · rw [(encryptSecret_eq_ok_iff.mp h).1] at he
    cases he
  apply Proc.Quiet.bind
  refine Proc.Quiet.ofExcept ?_ (fun e h => by cases h)
  rintro _ ⟨⟩
  apply Proc.Quiet.bind
  refine (readParsedById_quiet id).mono ?_ fun _ _ h => ⟨h.1, fun payload ho => absurd ho (h.2 _ _)⟩
  rintro parsed disk' ⟨hdisk', content, hcontent, hcap, hparsed⟩
  rw [hdisk']
  have hopen := openId_of_parsed hcontent hcap hparsed oldPassword
  apply Proc.Quiet.bind
  refine Proc.Quiet.ofExcept (fun payload hpayload => ?_) fun e he => ⟨rfl, fun payload ho => ?_⟩
  swap
  · rw [hopen, he] at ho
    cases ho
  apply Proc.Quiet.bind
  refine Proc.Quiet.ofExcept (fun bytes hbytes => ?_) fun e he => ⟨rfl, fun payload' ho bytes h => ?_⟩
  swap
  · obtain rfl : payload = payload' := by simpa [hopen, hpayload] using ho
    rw [he] at h
    cases h
  apply Proc.Quiet.bind
  refine (writeNewFile_quiet hfresh).mono ?_ fun _ _ h => h
  rintro _ disk'' rfl
  exact Proc.Quiet.pure ⟨payload, bytes, hopen.trans hpayload, hbytes, rfl⟩

/-- What an undisturbed migration of one wallet has done: the wallet is where it should be,
and nothing else differs. -/
structure Settled (X : Externals) (ks : FileKeystore) (wallet : WalletId)
    (password shared : String) (d d' : Device) : Prop where
  result : d'.result X ks wallet shared =
    goal X ks wallet password shared (d.view X ks wallet).1
  aliases : ∀ wallet', wallet' ≠ wallet → d'.aliases wallet' = d.aliases wallet'
  disk : ∀ path, path ≠ walletPath X ks wallet → d'.disk path = d.disk path
  wallets : d'.wallets = d.wallets
  shared : d'.shared = d.shared
  created : d'.created = d.created

/-- A wallet that is left with its own password, as it should be. -/
lemma Settled.unchanged (halias : d.aliases wallet = some password)
    (hshut : ¬∃ payload, openView X wallet (d.view X ks wallet).1 shared = .ok payload)
    (hgoal : goal X ks wallet password shared (d.view X ks wallet).1 = (some password, none)) :
    Settled X ks wallet password shared d d := by
  refine ⟨?_, fun _ _ => rfl, fun _ _ => rfl, rfl, rfl, rfl⟩
  rw [hgoal, Device.result, halias, toOption_openView hshut]

/-- The end of the migration of one wallet: its own password is deleted. -/
lemma deletePassword_quiet {d₁ : Device} {rekeyed : Bool} {E : String → Device → Prop}
    (hresult : (none, (openView X wallet (d₁.view X ks wallet).1 shared).toOption) =
      goal X ks wallet password shared (d.view X ks wallet).1)
    (hdisk : ∀ path, path ≠ walletPath X ks wallet → d₁.disk path = d.disk path)
    (hrest : d₁ = { d with disk := d₁.disk }) :
    (do
      deleteWalletPassword wallet
      pure rekeyed : ServiceIo Bool).Quiet d₁
        (fun _ => Settled X ks wallet password shared d) E := by
  apply Proc.Quiet.bind
  refine storeCall_quiet (Proc.Quiet.pure ⟨?_, ?_, hdisk, ?_, ?_, ?_⟩)
  · rw [← hresult, Device.result]
    simp [Device.view]
  · intro wallet' hne
    rw [hrest]
    exact Function.update_of_ne hne _ _
  all_goals rw [hrest]

/-- Undisturbed, the migration of one wallet takes it where it should be. -/
lemma migrateWalletPassword_quiet (hX : X.Lawful) (halias : d.aliases wallet = some password)
    (hfresh : d.disk (ks.tempPath (keystoreIdForWallet X wallet) (draws wallet).tempId) = none)
    (hsalt : (draws wallet).salt.isSome) (hnonce : (draws wallet).nonce.isSome) :
    (migrateWalletPassword X ks draws wallet password shared).Quiet d
      (fun _ => Settled X ks wallet password shared d)
      (fun _ => Settled X ks wallet password shared d) := by
  apply Proc.Quiet.bind
  refine keystoreExists_quiet.mono ?_ fun _ _ h => h
  rintro present d₁ ⟨hd₁, hpresent⟩
  rw [hd₁]
  by_cases hp : Present X wallet (d.view X ks wallet).1
  swap
  · obtain rfl : present = false := Bool.eq_false_iff.mpr fun h => hp (hpresent.mp h)
    rw [if_pos (by simp)]
    refine Proc.Quiet.pure (Settled.unchanged halias ?_ (if_pos hp))
    rintro ⟨payload, h⟩
    exact hp (present_of_openView h)
  obtain rfl : present = true := hpresent.mpr hp
  rw [if_neg (by simp), needsRekey]
  split
  · rename_i heq
    refine Proc.Quiet.bind (Proc.Quiet.pure ?_)
    refine deletePassword_quiet ?_ (fun _ _ => rfl) rfl
    rw [goal, if_neg (not_not.mpr hp), if_pos (.inl heq)]
  rename_i hne
  apply Proc.Quiet.bind
  apply Proc.Quiet.bind
  refine opensWith_quiet.mono ?_ fun _ _ h => h
  rintro opens d₁ ⟨hd₁, hopens⟩
  rw [hd₁]
  refine Proc.Quiet.pure ?_
  by_cases hs : ∃ payload, openView X wallet (d.view X ks wallet).1 shared = .ok payload
  · obtain rfl : opens = true := hopens.mpr hs
    obtain ⟨payload, hpayload⟩ := hs
    refine deletePassword_quiet ?_ (fun _ _ => rfl) rfl
    rw [goal_of_opens hpayload, hpayload]
    rfl
  obtain rfl : opens = false := Bool.eq_false_iff.mpr fun h => hs (hopens.mp h)
  apply Proc.Quiet.bind
  apply Proc.Quiet.bind
  apply Proc.Quiet.attempt
  apply Proc.Quiet.zoom
  apply (changePassword_quiet hfresh).mono
  · rintro found disk' ⟨payload, bytes, hopen, hbytes, hdisk'⟩
    have hopen' : openView X wallet ((d.setDisk disk').view X ks wallet).1 shared = .ok payload := by
      have hfile : ((d.setDisk disk').view X ks wallet).1 = some bytes := by
        rw [hdisk']
        exact Function.update_self _ _ _
      rw [hfile]
      exact (openFile_encryptSecret hX hbytes).1
    apply Proc.Quiet.bind
    refine opensWith_quiet.mono ?_ fun _ _ h => h
    rintro opens d₁ ⟨hd₁, hopens⟩
    obtain rfl : opens = true := hopens.mpr ⟨payload, hopen'⟩
    rw [hd₁, if_neg (by simp)]
    refine Proc.Quiet.pure (deletePassword_quiet ?_ ?_ rfl)
    · rw [hopen', goal, if_neg (not_not.mpr hp), if_neg (not_or.mpr ⟨hne, hs⟩),
        if_pos ⟨payload, hopen, draws wallet, bytes, hbytes⟩]
      exact congrArg (Prod.mk none) (congrArg Except.toOption hopen).symm
    · intro path hpath
      rw [hdisk']
      exact Function.update_of_ne hpath _ _
  · rintro e disk' ⟨hdisk', hnot⟩
    refine Proc.Quiet.throw ?_
    rw [hdisk']
    refine Settled.unchanged halias hs ?_
    rw [goal, if_neg (not_not.mpr hp), if_neg (not_or.mpr ⟨hne, hs⟩), if_neg]
    rintro ⟨payload, hopen, draws', bytes', hbytes'⟩
    obtain ⟨bytes, hbytes⟩ := encryptSecret_draws hX hbytes' hsalt hnonce
    exact hnot payload hopen bytes hbytes

lemma Settled.view_eq {wallets : List WalletId} (hids : DistinctIds X wallets) {d' : Device}
    {wallet' : WalletId} (h : Settled X ks wallet password shared d d') (hw : wallet ∈ wallets)
    (hw' : wallet' ∈ wallets) (hne : wallet' ≠ wallet) :
    d'.view X ks wallet' = d.view X ks wallet' := by
  refine Prod.ext (h.disk _ fun hpath => hne ?_) (h.aliases wallet' hne)
  exact hids _ hw' _ hw (pathForId_injective ks hpath)

/-! ## The undisturbed run of all wallets -/

/-- The draws of the wallets can be used: their staging files are free and the random
generator works. -/
def GoodDraws (X : Externals) (ks : FileKeystore) (draws : WalletId → Draws)
    (wallets : List WalletId) (disk : Disk) : Prop :=
  ∀ wallet ∈ wallets, disk (ks.tempPath (keystoreIdForWallet X wallet) (draws wallet).tempId) = none ∧
    (draws wallet).salt.isSome ∧ (draws wallet).nonce.isSome

lemma Settled.goodDraws {wallets : List WalletId} {d' : Device}
    (h : Settled X ks wallet password shared d d') (hgood : GoodDraws X ks draws wallets d.disk) :
    GoodDraws X ks draws wallets d'.disk := by
  intro wallet' hw'
  rw [h.disk _ (tempPath_ne_pathForId _ _ _ _).symm]
  exact hgood wallet' hw'

/-- What an undisturbed run over some wallets has done. -/
structure AllSettled (X : Externals) (ks : FileKeystore) (wallets : List WalletId)
    (shared : String) (legacy : List (WalletId × String)) (d d' : Device) : Prop where
  result : ∀ wallet password, (wallet, password) ∈ legacy →
    d'.result X ks wallet shared = goal X ks wallet password shared (d.view X ks wallet).1
  others : ∀ wallet ∈ wallets, wallet ∉ legacy.map Prod.fst →
    d'.view X ks wallet = d.view X ks wallet

/-- One more wallet in front. -/
lemma AllSettled.cons {wallets : List WalletId} (hids : DistinctIds X wallets)
    {legacy : List (WalletId × String)} {d₁ d' : Device}
    (hsub : ∀ w ∈ wallet :: legacy.map Prod.fst, w ∈ wallets)
    (hnodup : (wallet :: legacy.map Prod.fst).Nodup)
    (hsettled : Settled X ks wallet password shared d d₁)
    (h : AllSettled X ks wallets shared legacy d₁ d') :
    AllSettled X ks wallets shared ((wallet, password) :: legacy) d d' := by
  have hw : wallet ∈ wallets := hsub wallet List.mem_cons_self
  obtain ⟨hnot, -⟩ := List.nodup_cons.mp hnodup
  refine ⟨fun wallet' password' hmem => ?_, fun wallet' hw' hnot' => ?_⟩
  · rcases List.mem_cons.mp hmem with heq | hmem
    · obtain ⟨rfl, rfl⟩ := Prod.mk.inj heq
      rw [← hsettled.result, Device.result, Device.result, h.others wallet' hw hnot]
      exact Prod.ext (congrArg Prod.snd (h.others wallet' hw hnot)) rfl
    · have hin : wallet' ∈ legacy.map Prod.fst := List.mem_map.mpr ⟨_, hmem, rfl⟩
      have hne : wallet' ≠ wallet := fun heq => hnot (heq ▸ hin)
      rw [← hsettled.view_eq hids hw (hsub _ (List.mem_cons_of_mem _ hin)) hne]
      exact h.result wallet' password' hmem
  · rw [List.map_cons, List.mem_cons, not_or] at hnot'
    rw [h.others wallet' hw' hnot'.2, hsettled.view_eq hids hw hw' hnot'.1]

/-- Undisturbed, the loop takes every wallet where it should be, whatever becomes of the
wallets before it. -/
theorem migrateLoop_quiet (hX : X.Lawful) {wallets : List WalletId} (hids : DistinctIds X wallets)
    (shared : String) (legacy : List (WalletId × String))
    (hsub : ∀ w ∈ legacy.map Prod.fst, w ∈ wallets) (hnodup : (legacy.map Prod.fst).Nodup)
    (halias : ∀ wallet password, (wallet, password) ∈ legacy → d.aliases wallet = some password)
    (hgood : GoodDraws X ks draws wallets d.disk) :
    (migrateLoop X ks draws shared legacy).Quiet d
      (fun _ => AllSettled X ks wallets shared legacy d) (fun _ _ => False) := by
  induction legacy generalizing d with
  | nil => exact Proc.Quiet.pure ⟨fun _ _ h => (by cases h), fun _ _ _ => rfl⟩
  | cons entry legacy ih =>
    obtain ⟨wallet, password⟩ := entry
    obtain ⟨hnot, hnodup'⟩ := List.nodup_cons.mp hnodup
    obtain ⟨hfresh, hsalt, hnonce⟩ := hgood wallet (hsub wallet List.mem_cons_self)
    have hloop (d₁ : Device) (hsettled : Settled X ks wallet password shared d d₁) :
        (migrateLoop X ks draws shared legacy).Quiet d₁
          (fun _ d' => AllSettled X ks wallets shared ((wallet, password) :: legacy) d d')
          (fun _ _ => False) := by
      refine (ih (fun w hw => hsub w (List.mem_cons_of_mem _ hw)) hnodup' ?_
        (hsettled.goodDraws hgood)).mono
        (fun _ _ h => h.cons hids hsub hnodup hsettled) fun _ _ h => h
      intro w p hmem
      have hin : w ∈ legacy.map Prod.fst := List.mem_map.mpr ⟨(w, p), hmem, rfl⟩
      rw [hsettled.aliases w fun heq => hnot (heq ▸ hin)]
      exact halias w p (List.mem_cons_of_mem _ hmem)
    rw [migrateLoop]
    apply Proc.Quiet.bind
    apply Proc.Quiet.attempt
    apply (migrateWalletPassword_quiet hX (halias _ _ List.mem_cons_self) hfresh hsalt hnonce).mono
    · intro rekeyed d₁ hsettled
      apply Proc.Quiet.bind
      exact (hloop d₁ hsettled).mono (fun _ _ h => Proc.Quiet.pure h) fun _ _ h => h
    · intro error d₁ hsettled
      apply Proc.Quiet.bind
      exact (hloop d₁ hsettled).mono (fun _ _ h => Proc.Quiet.pure h) fun _ _ h => h

/-- Undisturbed, the passwords are collected. -/
lemma collectLegacy_quiet (wallets : List Wallet) {E : String → Device → Prop} :
    (collectLegacy wallets).Quiet d (fun legacy d' => d' = d ∧ legacy = d.legacy wallets) E := by
  induction wallets with
  | nil => exact Proc.Quiet.pure ⟨rfl, rfl⟩
  | cons w wallets ih =>
    rw [collectLegacy, Device.legacy]
    split
    · exact ih
    · apply Proc.Quiet.bind
      apply storeCall_quiet
      simp only
      split
      · apply Proc.Quiet.bind
        refine ih.mono ?_ fun _ _ h => h
        rintro legacy d' ⟨hd', hlegacy⟩
        exact Proc.Quiet.pure ⟨hd', by rw [hlegacy]⟩
      · exact ih

/-- Undisturbed, the shared password is found or created. -/
lemma getPassword_quiet {E : String → Device → Prop} :
    getPassword.Quiet d
      (fun shared d' => shared = d.sharedPassword ∧ d' = { d with shared := some shared }) E := by
  apply storeCall_quiet
  rw [Device.sharedPassword]
  cases hshared : d.shared with
  | some password =>
    refine ⟨rfl, ?_⟩
    show d = { d with shared := some password }
    rw [← hshared]
  | none => exact ⟨rfl, rfl⟩

/-- Undisturbed, `migrate_to_shared_password` takes every wallet with a password of its own
where it should be, and leaves the others. -/
theorem migrateToSharedPassword_quiet (hX : X.Lawful)
    (hids : DistinctIds X (d.wallets.map Wallet.id)) (hnodup : (d.wallets.map Wallet.id).Nodup)
    (hgood : GoodDraws X ks draws (d.wallets.map Wallet.id) d.disk) :
    (migrateToSharedPassword X ks draws).Quiet d
      (fun _ => AllSettled X ks (d.wallets.map Wallet.id) d.sharedPassword (d.legacy d.wallets) d)
      (fun _ => AllSettled X ks (d.wallets.map Wallet.id) d.sharedPassword
        (d.legacy d.wallets) d) := by
  apply Proc.Quiet.bind
  apply storeCall_quiet
  apply Proc.Quiet.bind
  refine (collectLegacy_quiet d.wallets).mono ?_ fun _ _ h => h
  rintro legacy d₁ ⟨hd₁, rfl⟩
  rw [hd₁]
  split
  · rename_i hnil
    rw [hnil]
    exact Proc.Quiet.pure ⟨fun _ _ h => (by cases h), fun _ _ _ => rfl⟩
  apply Proc.Quiet.bind
  refine getPassword_quiet.mono ?_ fun _ _ h => h
  rintro shared d₂ ⟨rfl, hd₂⟩
  have hsub := legacy_sublist (d := d) d.wallets
  apply Proc.Quiet.bind
  refine (migrateLoop_quiet hX hids d.sharedPassword (d.legacy d.wallets)
    (fun w hw => hsub.subset hw) (hsub.nodup hnodup) ?_ ?_).mono ?_ fun _ _ h => h.elim
  · intro wallet password hmem
    rw [hd₂]
    exact (mem_legacy_iff.mp hmem).1
  · rw [hd₂]
    exact hgood
  · rintro ⟨migrated, failures⟩ d' h
    rw [hd₂] at h
    have hall : AllSettled X ks (d.wallets.map Wallet.id) d.sharedPassword (d.legacy d.wallets)
        d d' := ⟨h.result, h.others⟩
    show Proc.Quiet (if failures = [] then _ else _) _ _ _
    split
    · exact Proc.Quiet.pure hall
    · exact Proc.Quiet.throw hall

end Quiet

end GemCore.Keystore
