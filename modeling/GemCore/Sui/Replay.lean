import GemCore.Lib.Lists
import GemCore.Sui.TransactionJson

/-!
# Replaying a transaction

What the arguments of a transaction of JSON refer to, and that the builder is asked for the same. The
replay goes through three numberings: of the inputs, of the commands, and of the results of a command.

## Main definitions

* `denote` — what an argument of the JSON refers to.
* `Faithful` — the commands of the builder are those of the JSON.
* `Resolvable`, `Acceptable` — what a replay accepts.
* `Tracks` — the invariant of the loop over the commands.

## Main results

* `faithful_of_replay` — what is replayed is faithful.
* `replay_ok_iff` — what is accepted.
-/

namespace GemCore.Sui

open Lib

/-! ## What the arguments refer to -/

section Denotation

variable (texts : TextLib) (chain : String → RpcObject)

/-- What an input is: bytes, an object as it is given or as the node has it under this id, or a
withdrawal. -/
def denoteInput : TransactionInput → Option Ref
  | .pure bytes => (texts.decodeBase64 bytes).toOption.map .pure
  | .object object => (objectInput texts object).toOption.map fun input => .object input.reference
  | .unresolvedObject objectId => do
    let address ← (texts.address objectId).toOption
    let object ← (fromRpcObject texts (chain objectId)).toOption
    if object.objectId = address then some (.object (object.input false).reference) else none
  | .fundsWithdrawal fundsWithdrawal =>
    (withdrawalType texts fundsWithdrawal).toOption.map fun coinType =>
      .withdrawal coinType fundsWithdrawal.maxAmount
  | .unresolvedPure _ => none

variable (inputs : List TransactionInput)

/-- **What an argument refers to**. -/
def denote : TransactionArgument → Option Ref
  | .gasCoin gasCoin => if gasCoin then some .gas else none
  | .input input => inputs[input]?.bind (denoteInput texts chain)
  | .result result => some (.result result)
  | .nestedResult command index => some (.nested command index)

/-- The kind, the target and the types of a command, with its arguments. -/
def readCommand : TransactionCommand → Option (Command TransactionArgument)
  | .moveCall call => (target texts call).toOption.map fun function =>
    .moveCall function call.arguments
  | .transferObjects objects address => some (.transferObjects objects address)
  | .splitCoins coin amounts => some (.splitCoins coin amounts)
  | .mergeCoins destination sources => some (.mergeCoins destination sources)
  | .makeMoveVec type elements => (vectorType texts type).toOption.map fun type =>
    .makeMoveVec type elements
  | .publish _ | .upgrade _ => none

/-- The command of the builder is this one. -/
def IsReplayed (command : TransactionCommand) (built : Command Ref) : Prop :=
  ∃ read, readCommand texts command = some read ∧
    read.map (denote texts chain inputs) = built.map some

/-- Only results of earlier commands are referred to. -/
def Earlier (built : List (Command Ref)) : Prop :=
  ∀ (index : ℕ) (command : Command Ref), built[index]? = some command →
    ∀ ref ∈ command.args, ∀ source, ref.command? = some source → source < index

/-- **The commands of the builder are those of the JSON**. -/
structure Faithful (commands : List TransactionCommand) (built : List (Command Ref)) : Prop where
  replayed : List.Forall₂ (IsReplayed texts chain inputs) commands built
  earlier : Earlier built

end Denotation

/-! ## What is accepted -/

/-- The result of a command with this index can be asked for. -/
def TransactionCommand.HasNested (index : ℕ) : TransactionCommand → Prop
  | moveCall _ | makeMoveVec _ _ => index < (index + 1) % 2 ^ 64
  | splitCoins _ amounts => index < amounts.length
  | transferObjects _ _ | mergeCoins _ _ | publish _ | upgrade _ => False

/-- The results of a command can be asked for as a whole. -/
def TransactionCommand.IsSingle : TransactionCommand → Prop
  | moveCall _ | makeMoveVec _ _ => True
  | splitCoins _ _ | transferObjects _ _ | mergeCoins _ _ | publish _ | upgrade _ => False

/-- **The arguments that are accepted** behind these commands. -/
def Resolvable (inputs : List TransactionInput) (done : List TransactionCommand) :
    TransactionArgument → Prop
  | .gasCoin gasCoin => gasCoin = true
  | .input input => input < inputs.length
  | .result result => ∃ command, done[result]? = some command ∧ command.IsSingle
  | .nestedResult result index => ∃ command, done[result]? = some command ∧ command.HasNested index

/-- **The commands that are accepted** behind others. -/
def Acceptable (texts : TextLib) (inputs : List TransactionInput) (done : List TransactionCommand)
    (command : TransactionCommand) : Prop :=
  ∃ read, readCommand texts command = some read ∧
    ∀ argument ∈ read.args, Resolvable inputs done argument

/-! ## The invariant -/

variable {lib : BuilderLib} {texts : TextLib} {chain : String → RpcObject}
  {inputs : List TransactionInput}

/-- What a command has put out stands for its results. -/
inductive Stands (lib : BuilderLib) (b : lib.Builder) (index : ℕ) :
    TransactionCommand → CommandOutput lib.Argument → Prop where
  | moveCall {call : MoveCallCommand} {argument : lib.Argument}
    (h : lib.refers b argument = some (.result index)) :
    Stands lib b index (.moveCall call) (.single argument)
  | makeMoveVec {type : Option String} {elements : List TransactionArgument}
    {argument : lib.Argument} (h : lib.refers b argument = some (.result index)) :
    Stands lib b index (.makeMoveVec type elements) (.single argument)
  | splitCoins {coin : TransactionArgument} {amounts : List TransactionArgument}
    {arguments : List lib.Argument}
    (h : arguments.map (lib.refers b) =
      (List.range amounts.length).map fun nested => some (.nested index nested)) :
    Stands lib b index (.splitCoins coin amounts) (.nested arguments)
  | transferObjects {objects : List TransactionArgument} {address : TransactionArgument} :
    Stands lib b index (.transferObjects objects address) .empty
  | mergeCoins {destination : TransactionArgument} {sources : List TransactionArgument} :
    Stands lib b index (.mergeCoins destination sources) .empty

/-- The argument refers to what the input is. -/
def IsInput (lib : BuilderLib) (texts : TextLib) (chain : String → RpcObject) (b : lib.Builder)
    (input : TransactionInput) (argument : lib.Argument) : Prop :=
  ∃ ref, denoteInput texts chain input = some ref ∧ ref.command? = none ∧
    lib.refers b argument = some ref

/-- **The invariant** of the loop: what is held of the inputs and of the commands before refers to
them. -/
structure Tracks (lib : BuilderLib) (texts : TextLib) (chain : String → RpcObject)
    (inputs : List TransactionInput) (arguments : List lib.Argument)
    (done : List TransactionCommand) (outputs : List (CommandOutput lib.Argument))
    (b : lib.Builder) : Prop where
  arguments : List.Forall₂ (IsInput lib texts chain b) inputs arguments
  length : outputs.length = done.length
  stands : ∀ (index : ℕ) output, outputs[index]? = some output →
    ∃ command, done[index]? = some command ∧ Stands lib b index command output
  faithful : Faithful texts chain inputs done (lib.commands b)

lemma Stands.keeps {b b' : lib.Builder} (hkeeps : lib.Keeps b b') {index : ℕ}
    {command : TransactionCommand} {output : CommandOutput lib.Argument}
    (h : Stands lib b index command output) : Stands lib b' index command output := by
  cases h with
  | moveCall h => exact .moveCall (hkeeps _ _ h)
  | makeMoveVec h => exact .makeMoveVec (hkeeps _ _ h)
  | splitCoins h => exact .splitCoins (hkeeps.map h)
  | transferObjects => exact .transferObjects
  | mergeCoins => exact .mergeCoins

lemma IsInput.keeps {b b' : lib.Builder} (hkeeps : lib.Keeps b b') {input : TransactionInput}
    {argument : lib.Argument} (h : IsInput lib texts chain b input argument) :
    IsInput lib texts chain b' input argument := by
  obtain ⟨ref, hdenote, hnone, hrefers⟩ := h
  exact ⟨ref, hdenote, hnone, hkeeps _ _ hrefers⟩

/-- The invariant stays when the builder is asked for something that adds no command. -/
theorem Tracks.keeps {arguments : List lib.Argument} {done : List TransactionCommand}
    {outputs : List (CommandOutput lib.Argument)} {b b' : lib.Builder} (hkeeps : lib.Keeps b b')
    (hcommands : lib.commands b' = lib.commands b)
    (h : Tracks lib texts chain inputs arguments done outputs b) :
    Tracks lib texts chain inputs arguments done outputs b' where
  arguments := h.arguments.imp fun _ _ => IsInput.keeps hkeeps
  length := h.length
  stands index output houtput := by
    obtain ⟨command, hcommand, hstands⟩ := h.stands index output houtput
    exact ⟨command, hcommand, hstands.keeps hkeeps⟩
  faithful := hcommands ▸ h.faithful

/-- The invariant is kept by one more command. -/
lemma Tracks.concat {arguments : List lib.Argument} {done : List TransactionCommand}
    {outputs : List (CommandOutput lib.Argument)} {b b' : lib.Builder}
    (h : Tracks lib texts chain inputs arguments done outputs b) {command : TransactionCommand}
    {built : Command Ref} {output : CommandOutput lib.Argument} (hadds : lib.Adds b built b')
    (hreplayed : IsReplayed texts chain inputs command built)
    (hearlier : ∀ ref ∈ built.args, ∀ source, ref.command? = some source → source < done.length)
    (hstands : Stands lib b' done.length command output) :
    Tracks lib texts chain inputs arguments (done ++ [command]) (outputs ++ [output]) b' where
  arguments := h.arguments.imp fun _ _ => IsInput.keeps hadds.1
  length := by rw [List.length_append, List.length_append, h.length]; rfl
  stands index output' houtput := by
    rcases getElem?_concat_eq_some houtput with hold | ⟨rfl, rfl⟩
    · obtain ⟨command', hcommand, hstands'⟩ := h.stands index output' hold
      exact ⟨command', getElem?_concat_of_eq_some hcommand, hstands'.keeps hadds.1⟩
    · refine ⟨command, ?_, h.length ▸ hstands⟩
      rw [h.length, List.getElem?_concat_length]
  faithful := by
    rw [hadds.2]
    refine ⟨List.rel_append h.faithful.replayed (.cons hreplayed .nil), ?_⟩
    intro index command' hcommand ref href source hsource
    rcases getElem?_concat_eq_some hcommand with hold | ⟨rfl, rfl⟩
    · exact h.faithful.earlier index command' hold ref href source hsource
    · rw [← h.faithful.replayed.length_eq]
      exact hearlier ref href source hsource

/-! ## Arguments -/

/-- What is found out about an argument: what it refers to, that this is not the result of a later
command, and that it is accepted. -/
def Found (lib : BuilderLib) (texts : TextLib) (chain : String → RpcObject)
    (inputs : List TransactionInput) (done : List TransactionCommand) (b : lib.Builder)
    (argument : TransactionArgument) (found : lib.Argument) : Prop :=
  ∃ ref, denote texts chain inputs argument = some ref ∧ lib.refers b found = some ref ∧
    (∀ source, ref.command? = some source → source < done.length) ∧ Resolvable inputs done argument

section Arguments

variable {arguments : List lib.Argument} {done : List TransactionCommand}
  {outputs : List (CommandOutput lib.Argument)} {b b' : lib.Builder}

lemma getElem?_nested {found : List lib.Argument} {index count : ℕ} {command : ℕ}
    {argument : lib.Argument}
    (h : found.map (lib.refers b) =
      (List.range count).map fun nested => some (.nested command nested))
    (hargument : found[index]? = some argument) :
    index < count ∧ lib.refers b argument = some (.nested command index) := by
  have hmap : (found.map (lib.refers b))[index]? = some (lib.refers b argument) := by
    rw [List.getElem?_map, hargument]
    rfl
  rw [h, List.getElem?_map] at hmap
  obtain ⟨nested, hnested, hrefers⟩ := Option.map_eq_some_iff.mp hmap
  obtain ⟨hindex, rfl⟩ := List.getElem?_eq_some_iff.mp hnested
  rw [List.length_range] at hindex
  rw [List.getElem_range] at hrefers
  exact ⟨hindex, hrefers.symm⟩

/-- The argument of a result. -/
lemma found_of_outputArgument (hlib : lib.Records)
    (htracks : Tracks lib texts chain inputs arguments done outputs b)
    {argument : TransactionArgument} {found : lib.Argument}
    (h : outputArgument lib outputs argument = .ok found) :
    Found lib texts chain inputs done b argument found := by
  unfold outputArgument at h
  split at h
  · next result =>
    split at h
    · next single hsingle =>
      obtain rfl := Except.ok.inj h
      obtain ⟨command, hcommand, hstands⟩ := htracks.stands _ _ hsingle
      have hlt : result < done.length := (List.getElem?_eq_some_iff.mp hcommand).1
      cases hstands with
      | moveCall hrefers | makeMoveVec hrefers =>
        refine ⟨.result result, rfl, hrefers, ?_, _, hcommand, trivial⟩
        rintro source ⟨⟩
        exact hlt
    · cases h
    · cases h
    · cases h
  · next command index =>
    split at h
    · next single hsingle =>
      have hget := okOr_eq_ok_iff.mp h
      obtain ⟨call, hcall, hstands⟩ := htracks.stands _ _ hsingle
      have hlt : command < done.length := (List.getElem?_eq_some_iff.mp hcall).1
      cases hstands with
      | moveCall hrefers | makeMoveVec hrefers =>
        obtain ⟨hindex, hnested⟩ := getElem?_nested (hlib.toNested b single command _ hrefers) hget
        refine ⟨.nested command index, rfl, hnested, ?_, _, hcall, hindex⟩
        rintro source ⟨⟩
        exact hlt
    · next nested hnested =>
      have hget := okOr_eq_ok_iff.mp h
      obtain ⟨split, hsplit, hstands⟩ := htracks.stands _ _ hnested
      have hlt : command < done.length := (List.getElem?_eq_some_iff.mp hsplit).1
      cases hstands with
      | splitCoins hrefers =>
        obtain ⟨hindex, hrefers⟩ := getElem?_nested hrefers hget
        refine ⟨.nested command index, rfl, hrefers, ?_, _, hsplit, hindex⟩
        rintro source ⟨⟩
        exact hlt
    · cases h
    · cases h
  · cases h
  · cases h

/-- **What an argument becomes**: one that refers to the same. -/
theorem argument_spec (hlib : lib.Records)
    (htracks : Tracks lib texts chain inputs arguments done outputs b)
    {argument : TransactionArgument} {found : lib.Argument}
    (h : inputOrOutputArgument lib arguments outputs argument b = .ok (found, b')) :
    (lib.Keeps b b' ∧ lib.commands b' = lib.commands b) ∧
      Found lib texts chain inputs done b' argument found := by
  unfold inputOrOutputArgument at h
  split at h
  · obtain ⟨hkeeps, hcommands, hrefers⟩ := hlib.gas b
    have hgas := Build.update_eq_ok_iff.mp h
    rw [hgas] at hkeeps hcommands hrefers
    refine ⟨⟨hkeeps, hcommands⟩, .gas, rfl, hrefers, ?_, rfl⟩
    intro source hsource
    cases hsource
  · cases (Build.ofExcept_eq_ok_iff.mp h).1
  · next index =>
    obtain ⟨hget, rfl⟩ := Build.ofExcept_eq_ok_iff.mp h
    obtain ⟨input, hinput, ref, hdenote, hnone, hrefers⟩ :=
      exists_getElem?_of_forall₂ htracks.arguments (okOr_eq_ok_iff.mp hget)
    refine ⟨⟨.refl _, rfl⟩, ref, ?_, hrefers, ?_, (List.getElem?_eq_some_iff.mp hinput).1⟩
    · rw [denote, hinput]
      exact hdenote
    · intro source hsource
      rw [hnone] at hsource
      cases hsource
  all_goals
    obtain ⟨houtput, rfl⟩ := Build.ofExcept_eq_ok_iff.mp h
    exact ⟨⟨.refl _, rfl⟩, found_of_outputArgument hlib htracks houtput⟩

/-- An index below the length is the index of an entry. -/
lemma exists_getElem?_of_lt {α : Type} {l : List α} {index : ℕ} (h : index < l.length) :
    ∃ a, l[index]? = some a := ⟨l[index], List.getElem?_eq_getElem h⟩

/-- What a command that is before has put out. -/
lemma Tracks.exists_output (htracks : Tracks lib texts chain inputs arguments done outputs b)
    {index : ℕ} {command : TransactionCommand} (h : done[index]? = some command) :
    ∃ output, outputs[index]? = some output ∧ Stands lib b index command output := by
  obtain ⟨output, houtput⟩ := exists_getElem?_of_lt
    (htracks.length ▸ (List.getElem?_eq_some_iff.mp h).1)
  obtain ⟨command', hcommand', hstands⟩ := htracks.stands index output houtput
  obtain rfl : command = command' := Option.some.inj (h.symm.trans hcommand')
  exact ⟨output, houtput, hstands⟩

/-- The nested results of a single one are there. -/
lemma exists_toNested (hlib : lib.Records) {single : lib.Argument} {command index : ℕ}
    (hrefers : lib.refers b single = some (.result command)) (h : index < (index + 1) % 2 ^ 64) :
    ∃ nested, (lib.toNested single ((index + 1) % 2 ^ 64))[index]? = some nested := by
  have hlength := congrArg List.length
    (hlib.toNested b single command ((index + 1) % 2 ^ 64) hrefers)
  rw [List.length_map, List.length_map, List.length_range] at hlength
  exact exists_getElem?_of_lt (lt_of_lt_of_eq h hlength.symm)

/-- What is accepted becomes an argument. -/
lemma exists_argument (hlib : lib.Records)
    (htracks : Tracks lib texts chain inputs arguments done outputs b)
    {argument : TransactionArgument} (h : Resolvable inputs done argument) :
    ∃ found b', inputOrOutputArgument lib arguments outputs argument b = .ok (found, b') := by
  cases argument with
  | gasCoin gasCoin =>
    obtain rfl : gasCoin = true := h
    exact ⟨_, _, rfl⟩
  | input index =>
    have hlt : index < arguments.length := htracks.arguments.length_eq ▸ (h : index < inputs.length)
    obtain ⟨found, hfound⟩ := exists_getElem?_of_lt hlt
    refine ⟨found, b, ?_⟩
    rw [inputOrOutputArgument, hfound]
    rfl
  | result result =>
    obtain ⟨command, hcommand, hsingle⟩ := h
    obtain ⟨output, houtput, hstands⟩ := htracks.exists_output hcommand
    cases hstands with
    | @moveCall call single hrefers | @makeMoveVec type elements single hrefers =>
      refine ⟨single, b, ?_⟩
      rw [inputOrOutputArgument, outputArgument, houtput]
      rfl
    | splitCoins hrefers | transferObjects | mergeCoins => cases hsingle
  | nestedResult command index =>
    obtain ⟨call, hcall, hnested⟩ := h
    obtain ⟨output, houtput, hstands⟩ := htracks.exists_output hcall
    cases hstands with
    | moveCall hrefers | makeMoveVec hrefers =>
      obtain ⟨nested, hget⟩ := exists_toNested hlib hrefers hnested
      refine ⟨nested, b, ?_⟩
      simp only [inputOrOutputArgument, outputArgument, houtput]
      rw [hget]
      rfl
    | @splitCoins coin amounts results hrefers =>
      have hlength := congrArg List.length hrefers
      rw [List.length_map, List.length_map, List.length_range] at hlength
      have hlt : index < results.length := hlength ▸ (hnested : index < amounts.length)
      obtain ⟨nested, hget⟩ := exists_getElem?_of_lt hlt
      refine ⟨nested, b, ?_⟩
      simp only [inputOrOutputArgument, outputArgument, houtput]
      rw [hget]
      rfl
    | transferObjects => cases hnested
    | mergeCoins => cases hnested

/-- What an argument refers to stays. -/
lemma Found.keeps (hkeeps : lib.Keeps b b') {argument : TransactionArgument}
    {found : lib.Argument} (h : Found lib texts chain inputs done b argument found) :
    Found lib texts chain inputs done b' argument found := by
  obtain ⟨ref, hdenote, hrefers, hrest⟩ := h
  exact ⟨ref, hdenote, hkeeps _ _ hrefers, hrest⟩

/-- Several arguments, one after the other. -/
lemma arguments_spec (hlib : lib.Records)
    (htracks : Tracks lib texts chain inputs arguments done outputs b)
    {l : List TransactionArgument} {found : List lib.Argument}
    (h : Build.collect (inputOrOutputArgument lib arguments outputs) l b = .ok (found, b')) :
    (lib.Keeps b b' ∧ lib.commands b' = lib.commands b) ∧
      List.Forall₂ (Found lib texts chain inputs done b') l found :=
  (Build.collect_spec (Tracks lib texts chain inputs arguments done outputs)
    (fun b b' => lib.Keeps b b' ∧ lib.commands b' = lib.commands b)
    (Found lib texts chain inputs done) (fun b => ⟨.refl b, rfl⟩)
    (fun _ _ _ hleft hright => ⟨hleft.1.trans hright.1, hright.2.trans hleft.2⟩)
    (fun _ _ _ _ hgrows => Found.keeps hgrows.1)
    (fun _ _ _ _ _ htracks h =>
      have hspec := argument_spec hlib htracks h
      ⟨htracks.keeps hspec.1.1 hspec.1.2, hspec⟩)
    htracks h).2

/-- Several arguments that are accepted. -/
lemma exists_arguments (hlib : lib.Records)
    (htracks : Tracks lib texts chain inputs arguments done outputs b)
    {l : List TransactionArgument} (h : ∀ argument ∈ l, Resolvable inputs done argument) :
    ∃ found b', Build.collect (inputOrOutputArgument lib arguments outputs) l b = .ok (found, b') := by
  obtain ⟨found, b', hfound, -⟩ := Build.exists_collect
    (Tracks lib texts chain inputs arguments done outputs)
    (fun argument hargument b htracks => by
      obtain ⟨found, b', hfound⟩ := exists_argument hlib htracks (h argument hargument)
      obtain ⟨⟨hkeeps, hcommands⟩, -⟩ := argument_spec hlib htracks hfound
      exact ⟨found, b', hfound, htracks.keeps hkeeps hcommands⟩) htracks
  exact ⟨found, b', hfound⟩

/-- What several arguments refer to. -/
lemma exists_refs {l : List TransactionArgument} {found : List lib.Argument}
    (h : List.Forall₂ (Found lib texts chain inputs done b) l found) :
    ∃ refs, l.map (denote texts chain inputs) = refs.map some ∧ lib.RefersTo b found refs ∧
      (∀ ref ∈ refs, ∀ source, ref.command? = some source → source < done.length) ∧
      ∀ argument ∈ l, Resolvable inputs done argument := by
  induction h with
  | nil =>
    refine ⟨[], rfl, rfl, ?_, ?_⟩
    · intro ref href
      cases href
    · intro argument hargument
      cases hargument
  | @cons argument found l results hfirst _ ih =>
    obtain ⟨ref, hdenote, hrefers, hearlier, hresolvable⟩ := hfirst
    obtain ⟨refs, hdenotes, hrefersTo, hearliers, hresolvables⟩ := ih
    refine ⟨ref :: refs, ?_, ?_, ?_, ?_⟩
    · rw [List.map_cons, List.map_cons, hdenote, hdenotes]
    · rw [BuilderLib.RefersTo, List.map_cons, List.map_cons, hrefers, hrefersTo]
    · exact List.forall_mem_cons.mpr ⟨hearlier, hearliers⟩
    · exact List.forall_mem_cons.mpr ⟨hresolvable, hresolvables⟩

/-! ## Commands -/

/-- The builder has as many commands as there are before. -/
lemma Tracks.length_commands (htracks : Tracks lib texts chain inputs arguments done outputs b) :
    (lib.commands b).length = done.length := htracks.faithful.replayed.length_eq.symm

/-- **What a command does**: the builder is asked for the same, and the invariant is kept.

**Proof sketch.** The arguments are made first, which adds no command. They refer to what those of the
JSON refer to, and so does the command that the builder records. Its results are numbered by how many
commands there are before. -/
theorem command_spec (hlib : lib.Records)
    (htracks : Tracks lib texts chain inputs arguments done outputs b)
    {command : TransactionCommand} {output : CommandOutput lib.Argument}
    (h : replayCommand texts lib arguments outputs command b = .ok (output, b')) :
    Tracks lib texts chain inputs arguments (done ++ [command]) (outputs ++ [output]) b' ∧
      Acceptable texts inputs done command := by
  cases command with
  | moveCall call =>
    obtain ⟨found, b₁, hfound, h⟩ := Build.bind_eq_ok_iff.mp h
    obtain ⟨⟨hkeeps, hcommands⟩, hall⟩ := arguments_spec hlib htracks hfound
    obtain ⟨refs, hdenote, hrefers, hearlier, hresolvable⟩ := exists_refs hall
    obtain ⟨function, htarget, h⟩ := Build.ofExcept_bind_eq_ok_iff.mp h
    obtain ⟨single, b₂, hcall, h⟩ := Build.bind_eq_ok_iff.mp h
    obtain ⟨rfl, rfl⟩ := Build.pure_eq_ok_iff.mp h
    have htracks' := htracks.keeps hkeeps hcommands
    obtain ⟨hadds, hsingle⟩ := hlib.moveCall function found refs b₁ hrefers
    rw [Build.update_eq_ok_iff.mp hcall] at hadds hsingle
    rw [htracks'.length_commands] at hsingle
    have hread : readCommand texts (.moveCall call) = some (.moveCall function call.arguments) := by
      rw [readCommand, toOption_eq_some_iff.mpr htarget]
      rfl
    refine ⟨htracks'.concat hadds ⟨_, hread, ?_⟩ hearlier (.moveCall hsingle), _, hread, hresolvable⟩
    rw [Command.map, Command.map, hdenote]
  | transferObjects objects address =>
    obtain ⟨found, b₁, hfound, h⟩ := Build.bind_eq_ok_iff.mp h
    obtain ⟨⟨hkeeps, hcommands⟩, hall⟩ := arguments_spec hlib htracks hfound
    have htracks₁ := htracks.keeps hkeeps hcommands
    obtain ⟨recipient, b₂, hrecipient, h⟩ := Build.bind_eq_ok_iff.mp h
    obtain ⟨⟨hkeeps₁, hcommands₁⟩, ref, haddress, hrefer, hbefore, hresolve⟩ :=
      argument_spec hlib htracks₁ hrecipient
    obtain ⟨refs, hdenote, hrefers, hearlier, hresolvable⟩ :=
      exists_refs (hall.imp fun _ _ => Found.keeps hkeeps₁)
    have hadds := hlib.transferObjects found recipient refs ref b₂ hrefers hrefer
    obtain ⟨rfl, rfl⟩ := Prod.mk.inj (Build.update_eq_ok_iff.mp h)
    refine ⟨(htracks₁.keeps hkeeps₁ hcommands₁).concat hadds ⟨_, rfl, ?_⟩ ?_ .transferObjects, _,
      rfl, ?_⟩
    · rw [Command.map, Command.map, hdenote, haddress]
    · exact List.forall_mem_append.mpr ⟨hearlier, List.forall_mem_singleton.mpr hbefore⟩
    · exact List.forall_mem_append.mpr ⟨hresolvable, List.forall_mem_singleton.mpr hresolve⟩
  | splitCoins coin amounts =>
    obtain ⟨source, b₁, hsource, h⟩ := Build.bind_eq_ok_iff.mp h
    obtain ⟨⟨hkeeps, hcommands⟩, hcoin⟩ := argument_spec hlib htracks hsource
    have htracks₁ := htracks.keeps hkeeps hcommands
    obtain ⟨found, b₂, hfound, h⟩ := Build.bind_eq_ok_iff.mp h
    obtain ⟨⟨hkeeps₁, hcommands₁⟩, hall⟩ := arguments_spec hlib htracks₁ hfound
    obtain ⟨ref, hdenotes, hrefer, hbefore, hresolve⟩ := hcoin.keeps hkeeps₁
    obtain ⟨refs, hdenote, hrefers, hearlier, hresolvable⟩ := exists_refs hall
    obtain ⟨results, b₃, hsplit, h⟩ := Build.bind_eq_ok_iff.mp h
    obtain ⟨rfl, rfl⟩ := Build.pure_eq_ok_iff.mp h
    have htracks₂ := htracks₁.keeps hkeeps₁ hcommands₁
    obtain ⟨hadds, hresults⟩ := hlib.splitCoins source found ref refs b₂ hrefer hrefers
    rw [Build.update_eq_ok_iff.mp hsplit] at hadds hresults
    rw [htracks₂.length_commands, ← hall.length_eq] at hresults
    refine ⟨htracks₂.concat hadds ⟨_, rfl, ?_⟩ ?_ (.splitCoins hresults), _, rfl, ?_⟩
    · rw [Command.map, Command.map, hdenote, hdenotes]
    · exact List.forall_mem_cons.mpr ⟨hbefore, hearlier⟩
    · exact List.forall_mem_cons.mpr ⟨hresolve, hresolvable⟩
  | mergeCoins destination sources =>
    obtain ⟨target, b₁, htarget, h⟩ := Build.bind_eq_ok_iff.mp h
    obtain ⟨⟨hkeeps, hcommands⟩, hdestination⟩ := argument_spec hlib htracks htarget
    have htracks₁ := htracks.keeps hkeeps hcommands
    obtain ⟨found, b₂, hfound, h⟩ := Build.bind_eq_ok_iff.mp h
    obtain ⟨⟨hkeeps₁, hcommands₁⟩, hall⟩ := arguments_spec hlib htracks₁ hfound
    obtain ⟨ref, hdenotes, hrefer, hbefore, hresolve⟩ := hdestination.keeps hkeeps₁
    obtain ⟨refs, hdenote, hrefers, hearlier, hresolvable⟩ := exists_refs hall
    have hadds := hlib.mergeCoins target found ref refs b₂ hrefer hrefers
    obtain ⟨rfl, rfl⟩ := Prod.mk.inj (Build.update_eq_ok_iff.mp h)
    refine ⟨(htracks₁.keeps hkeeps₁ hcommands₁).concat hadds ⟨_, rfl, ?_⟩ ?_ .mergeCoins, _, rfl, ?_⟩
    · rw [Command.map, Command.map, hdenote, hdenotes]
    · exact List.forall_mem_cons.mpr ⟨hbefore, hearlier⟩
    · exact List.forall_mem_cons.mpr ⟨hresolve, hresolvable⟩
  | makeMoveVec type elements =>
    obtain ⟨type', htype, h⟩ := Build.ofExcept_bind_eq_ok_iff.mp h
    obtain ⟨found, b₁, hfound, h⟩ := Build.bind_eq_ok_iff.mp h
    obtain ⟨⟨hkeeps, hcommands⟩, hall⟩ := arguments_spec hlib htracks hfound
    obtain ⟨refs, hdenote, hrefers, hearlier, hresolvable⟩ := exists_refs hall
    obtain ⟨single, b₂, hvector, h⟩ := Build.bind_eq_ok_iff.mp h
    obtain ⟨rfl, rfl⟩ := Build.pure_eq_ok_iff.mp h
    have htracks' := htracks.keeps hkeeps hcommands
    obtain ⟨hadds, hsingle⟩ := hlib.makeMoveVec type' found refs b₁ hrefers
    rw [Build.update_eq_ok_iff.mp hvector] at hadds hsingle
    rw [htracks'.length_commands] at hsingle
    have hread : readCommand texts (.makeMoveVec type elements) =
        some (.makeMoveVec type' elements) := by
      rw [readCommand, toOption_eq_some_iff.mpr htype]
      rfl
    refine ⟨htracks'.concat hadds ⟨_, hread, ?_⟩ hearlier (.makeMoveVec hsingle), _, hread,
      hresolvable⟩
    rw [Command.map, Command.map, hdenote]
  | publish publish | upgrade upgrade => cases (Build.ofExcept_eq_ok_iff.mp h).1

/-- A command that is accepted. -/
lemma exists_command (hlib : lib.Records)
    (htracks : Tracks lib texts chain inputs arguments done outputs b)
    {command : TransactionCommand} (h : Acceptable texts inputs done command) :
    ∃ output b', replayCommand texts lib arguments outputs command b = .ok (output, b') := by
  obtain ⟨read, hread, hresolvable⟩ := h
  cases command with
  | moveCall call =>
    obtain ⟨function, htarget, rfl⟩ := Option.map_eq_some_iff.mp hread
    obtain ⟨found, b₁, hfound⟩ := exists_arguments hlib htracks hresolvable
    exact ⟨_, _, Build.bind_eq_ok_iff.mpr ⟨found, b₁, hfound, 
      Build.ofExcept_bind_eq_ok_iff.mpr ⟨function, toOption_eq_some_iff.mp htarget, rfl⟩⟩⟩
  | transferObjects objects address =>
    obtain rfl := Option.some.inj hread
    obtain ⟨hobjects, haddress⟩ := List.forall_mem_append.mp hresolvable
    obtain ⟨found, b₁, hfound⟩ := exists_arguments hlib htracks hobjects
    obtain ⟨⟨hkeeps, hcommands⟩, -⟩ := arguments_spec hlib htracks hfound
    obtain ⟨recipient, b₂, hrecipient⟩ := exists_argument hlib (htracks.keeps hkeeps hcommands)
      (List.forall_mem_singleton.mp haddress)
    exact ⟨_, _, Build.bind_eq_ok_iff.mpr ⟨found, b₁, hfound, Build.bind_eq_ok_iff.mpr
      ⟨recipient, b₂, hrecipient, rfl⟩⟩⟩
  | splitCoins coin amounts =>
    obtain rfl := Option.some.inj hread
    obtain ⟨hcoin, hamounts⟩ := List.forall_mem_cons.mp hresolvable
    obtain ⟨source, b₁, hsource⟩ := exists_argument hlib htracks hcoin
    obtain ⟨⟨hkeeps, hcommands⟩, -⟩ := argument_spec hlib htracks hsource
    obtain ⟨found, b₂, hfound⟩ := exists_arguments hlib (htracks.keeps hkeeps hcommands) hamounts
    exact ⟨_, _, Build.bind_eq_ok_iff.mpr ⟨source, b₁, hsource, Build.bind_eq_ok_iff.mpr
      ⟨found, b₂, hfound, rfl⟩⟩⟩
  | mergeCoins destination sources =>
    obtain rfl := Option.some.inj hread
    obtain ⟨hdestination, hsources⟩ := List.forall_mem_cons.mp hresolvable
    obtain ⟨target, b₁, htarget⟩ := exists_argument hlib htracks hdestination
    obtain ⟨⟨hkeeps, hcommands⟩, -⟩ := argument_spec hlib htracks htarget
    obtain ⟨found, b₂, hfound⟩ := exists_arguments hlib (htracks.keeps hkeeps hcommands) hsources
    exact ⟨_, _, Build.bind_eq_ok_iff.mpr ⟨target, b₁, htarget, Build.bind_eq_ok_iff.mpr
      ⟨found, b₂, hfound, rfl⟩⟩⟩
  | makeMoveVec type elements =>
    obtain ⟨type', htype, rfl⟩ := Option.map_eq_some_iff.mp hread
    obtain ⟨found, b₁, hfound⟩ := exists_arguments hlib htracks hresolvable
    exact ⟨_, _, Build.ofExcept_bind_eq_ok_iff.mpr ⟨type', toOption_eq_some_iff.mp htype,
      Build.bind_eq_ok_iff.mpr ⟨found, b₁, hfound, rfl⟩⟩⟩
  | publish publish | upgrade upgrade => cases hread

/-! ## Runs -/

/-- **All commands that are left**: the invariant is kept to the end, and each of them was accepted
behind those before. -/
theorem replayCommands_spec (hlib : lib.Records)
    (htracks : Tracks lib texts chain inputs arguments done outputs b)
    {commands : List TransactionCommand} {outputs' : List (CommandOutput lib.Argument)}
    (h : replayCommands texts lib arguments commands outputs b = .ok (outputs', b')) :
    Tracks lib texts chain inputs arguments (done ++ commands) outputs' b' ∧
      ∀ before command after, commands = before ++ command :: after →
        Acceptable texts inputs (done ++ before) command := by
  induction commands generalizing done outputs b with
  | nil =>
    obtain ⟨rfl, rfl⟩ := Build.pure_eq_ok_iff.mp h
    refine ⟨by rwa [List.append_nil], ?_⟩
    intro before command after hsplit
    exact absurd hsplit.symm (List.append_ne_nil_of_right_ne_nil _ (List.cons_ne_nil _ _))
  | cons command commands ih =>
    obtain ⟨output, b₁, houtput, hrest⟩ := Build.bind_eq_ok_iff.mp h
    obtain ⟨htracks₁, hacceptable⟩ := command_spec hlib htracks houtput
    obtain ⟨htracks', hall⟩ := ih htracks₁ hrest
    rw [List.append_assoc, List.singleton_append] at htracks'
    refine ⟨htracks', ?_⟩
    intro before command' after hsplit
    cases before with
    | nil =>
      obtain ⟨rfl, -⟩ := List.cons.inj hsplit
      rwa [List.append_nil]
    | cons first before =>
      obtain ⟨rfl, hsplit'⟩ := List.cons.inj hsplit
      have hacceptable' := hall before command' after hsplit'
      rwa [List.append_assoc, List.singleton_append] at hacceptable'

/-- Commands that are accepted, each behind those before. -/
lemma exists_replayCommands (hlib : lib.Records)
    (htracks : Tracks lib texts chain inputs arguments done outputs b)
    {commands : List TransactionCommand}
    (h : ∀ before command after, commands = before ++ command :: after →
      Acceptable texts inputs (done ++ before) command) :
    ∃ outputs' b', replayCommands texts lib arguments commands outputs b = .ok (outputs', b') := by
  induction commands generalizing done outputs b with
  | nil => exact ⟨outputs, b, rfl⟩
  | cons command commands ih =>
    have hfirst := h [] command commands rfl
    rw [List.append_nil] at hfirst
    obtain ⟨output, b₁, houtput⟩ := exists_command hlib htracks hfirst
    obtain ⟨outputs', b', hrest⟩ := ih (command_spec hlib htracks houtput).1 fun before command' after
        hsplit => by
      rw [List.append_assoc, List.singleton_append]
      exact h (command :: before) command' after (by rw [hsplit, List.cons_append])
    exact ⟨outputs', b', Build.bind_eq_ok_iff.mpr ⟨output, b₁, houtput, hrest⟩⟩

end Arguments

/-! ## Inputs -/

/-- The objects that were found for the inputs are those that the node has. -/
def Resolves (texts : TextLib) (chain : String → RpcObject) (inputs : List TransactionInput)
    (objectInputs : AssocMap ℕ ObjectInput) : Prop :=
  ∀ (index : ℕ) objectId, inputs[index]? = some (.unresolvedObject objectId) →
    ∃ object, AList.lookup index objectInputs = some object ∧
      denoteInput texts chain (.unresolvedObject objectId) = some (.object object.reference)

/-- An input is readable if it is anything at all. -/
def Readable (texts : TextLib) (chain : String → RpcObject) (input : TransactionInput) : Prop :=
  ∃ ref, denoteInput texts chain input = some ref

section Inputs

variable {objectInputs : AssocMap ℕ ObjectInput} {b b' : lib.Builder}

/-- An argument that is provided refers to what was asked for. -/
lemma isInput_of_provides {call : lib.Builder → lib.Argument × lib.Builder} {ref : Ref}
    (hcall : lib.Provides call ref) {input : TransactionInput} {argument : lib.Argument}
    (h : (Build.update call : Build lib.Builder SuiError lib.Argument) b = .ok (argument, b'))
    (hdenote : denoteInput texts chain input = some ref) (hnone : ref.command? = none) :
    (lib.Keeps b b' ∧ lib.commands b' = lib.commands b) ∧
      IsInput lib texts chain b' input argument := by
  obtain ⟨hkeeps, hcommands, hrefers⟩ := hcall b
  rw [Build.update_eq_ok_iff.mp h] at hkeeps hcommands hrefers
  exact ⟨⟨hkeeps, hcommands⟩, ref, hdenote, hnone, hrefers⟩

/-- **What an input becomes**: an argument that refers to it. -/
theorem input_spec (hlib : lib.Records) (hresolves : Resolves texts chain inputs objectInputs)
    {index : ℕ} {input : TransactionInput} (hinput : inputs[index]? = some input)
    {argument : lib.Argument}
    (h : replayInput texts lib objectInputs index input b = .ok (argument, b')) :
    (lib.Keeps b b' ∧ lib.commands b' = lib.commands b) ∧
      IsInput lib texts chain b' input argument := by
  cases input with
  | pure bytes =>
    obtain ⟨decoded, hdecode, hpure⟩ := Build.ofExcept_bind_eq_ok_iff.mp h
    refine isInput_of_provides (hlib.pureBytesUnique decoded) hpure ?_ rfl
    rw [denoteInput, toOption_eq_some_iff.mpr (mapError_eq_ok_iff.mp hdecode)]
    rfl
  | object object =>
    obtain ⟨found, hfound, hobject⟩ := Build.ofExcept_bind_eq_ok_iff.mp h
    refine isInput_of_provides (hlib.object found) hobject ?_ rfl
    rw [denoteInput, toOption_eq_some_iff.mpr hfound]
    rfl
  | unresolvedObject objectId =>
    obtain ⟨found, hfound, hobject⟩ := Build.ofExcept_bind_eq_ok_iff.mp h
    obtain ⟨object, hlookup, hdenote⟩ := hresolves index objectId hinput
    obtain rfl : object = found :=
      Option.some.inj (hlookup.symm.trans (okOr_eq_ok_iff.mp hfound))
    exact isInput_of_provides (hlib.object object) hobject hdenote rfl
  | fundsWithdrawal fundsWithdrawal =>
    obtain ⟨coinType, htype, hwithdrawal⟩ := Build.ofExcept_bind_eq_ok_iff.mp h
    refine isInput_of_provides (hlib.fundsWithdrawal coinType fundsWithdrawal.maxAmount)
      hwithdrawal ?_ rfl
    rw [denoteInput, toOption_eq_some_iff.mpr htype]
    rfl
  | unresolvedPure pure => cases (Build.ofExcept_eq_ok_iff.mp h).1

/-- An input that is readable. -/
lemma exists_input (hresolves : Resolves texts chain inputs objectInputs) {index : ℕ}
    {input : TransactionInput} (hinput : inputs[index]? = some input)
    (h : Readable texts chain input) (b : lib.Builder) :
    ∃ argument b', replayInput texts lib objectInputs index input b = .ok (argument, b') := by
  obtain ⟨ref, href⟩ := h
  cases input with
  | pure bytes =>
    obtain ⟨decoded, hdecode, -⟩ := Option.map_eq_some_iff.mp href
    exact ⟨_, _, Build.ofExcept_bind_eq_ok_iff.mpr
      ⟨decoded, mapError_eq_ok_iff.mpr (toOption_eq_some_iff.mp hdecode), rfl⟩⟩
  | object object =>
    obtain ⟨found, hfound, -⟩ := Option.map_eq_some_iff.mp href
    exact ⟨_, _, Build.ofExcept_bind_eq_ok_iff.mpr
      ⟨found, toOption_eq_some_iff.mp hfound, rfl⟩⟩
  | unresolvedObject objectId =>
    obtain ⟨object, hlookup, -⟩ := hresolves index objectId hinput
    exact ⟨_, _, Build.ofExcept_bind_eq_ok_iff.mpr
      ⟨object, okOr_eq_ok_iff.mpr hlookup, rfl⟩⟩
  | fundsWithdrawal fundsWithdrawal =>
    obtain ⟨coinType, htype, -⟩ := Option.map_eq_some_iff.mp href
    exact ⟨_, _, Build.ofExcept_bind_eq_ok_iff.mpr
      ⟨coinType, toOption_eq_some_iff.mp htype, rfl⟩⟩
  | unresolvedPure pure => cases href

/-- **All inputs**: their arguments refer to them, and there is no command yet. -/
theorem replayInputs_spec (hlib : lib.Records) (hresolves : Resolves texts chain inputs objectInputs)
    {arguments : List lib.Argument}
    (h : replayInputs texts lib objectInputs inputs lib.new = .ok (arguments, b)) :
    Tracks lib texts chain inputs arguments [] [] b := by
  obtain ⟨-, ⟨-, hcommands⟩, hall⟩ := Build.collect_spec (fun _ => True)
    (fun b b' => lib.Keeps b b' ∧ lib.commands b' = lib.commands b)
    (fun b entry argument => IsInput lib texts chain b entry.1 argument) (fun b => ⟨.refl b, rfl⟩)
    (fun _ _ _ hleft hright => ⟨hleft.1.trans hright.1, hright.2.trans hleft.2⟩)
    (fun _ _ _ _ hgrows => IsInput.keeps hgrows.1)
    (fun entry hentry _ _ _ _ h =>
      ⟨trivial, input_spec hlib hresolves (List.mem_zipIdx_iff_getElem?.mp hentry) h⟩)
    trivial h
  rw [hlib.commands_new] at hcommands
  refine ⟨?_, rfl, ?_, ?_⟩
  · rw [← List.zipIdx_map_fst 0 inputs, List.forall₂_map_left_iff]
    exact hall
  · intro index output houtput
    cases houtput
  · rw [hcommands]
    refine ⟨.nil, ?_⟩
    intro index command hcommand
    cases hcommand

/-- Inputs that are readable. -/
lemma exists_replayInputs (hresolves : Resolves texts chain inputs objectInputs)
    (h : ∀ input ∈ inputs, Readable texts chain input) :
    ∃ arguments b, replayInputs texts lib objectInputs inputs lib.new = .ok (arguments, b) := by
  have hstep : ∀ entry ∈ inputs.zipIdx, ∀ b : lib.Builder, True → ∃ argument b',
      replayInput texts lib objectInputs entry.2 entry.1 b = .ok (argument, b') ∧ True := by
    intro entry hentry b _
    have hinput := List.mem_zipIdx_iff_getElem?.mp hentry
    obtain ⟨argument, b', hrun⟩ :=
      exists_input hresolves hinput (h entry.1 (List.mem_of_getElem? hinput)) b
    exact ⟨argument, b', hrun, trivial⟩
  obtain ⟨arguments, b, hrun, -⟩ := Build.exists_collect (fun _ => True) hstep trivial
  exact ⟨arguments, b, hrun⟩

end Inputs

/-! ## The whole replay -/

/-- Each command is accepted behind those before. -/
def AllAcceptable (texts : TextLib) (inputs : List TransactionInput)
    (commands : List TransactionCommand) : Prop :=
  ∀ before command after, commands = before ++ command :: after →
    Acceptable texts inputs before command

section Whole

variable {replay : TransactionJsonReplay}

/-- **What is replayed is faithful**, and every command of it was accepted. -/
theorem replay_spec (hlib : lib.Records)
    (hresolves : Resolves texts chain replay.transaction.inputs replay.objectInputs)
    {outputs : List (CommandOutput lib.Argument)} {txb : lib.Builder}
    (h : replay.replay texts lib = .ok (outputs, txb)) :
    (∃ arguments, Tracks lib texts chain replay.transaction.inputs arguments
      replay.transaction.commands outputs txb) ∧
      AllAcceptable texts replay.transaction.inputs replay.transaction.commands := by
  obtain ⟨arguments, b, hinputs, hcommands⟩ := Build.bind_eq_ok_iff.mp h
  obtain ⟨htracks, hacceptable⟩ :=
    replayCommands_spec hlib (replayInputs_spec hlib hresolves hinputs) hcommands
  exact ⟨⟨arguments, htracks⟩, hacceptable⟩

/-- The builder is asked for what the JSON says. -/
lemma faithful_of_replay (hlib : lib.Records)
    (hresolves : Resolves texts chain replay.transaction.inputs replay.objectInputs)
    {outputs : List (CommandOutput lib.Argument)} {txb : lib.Builder}
    (h : replay.replay texts lib = .ok (outputs, txb)) :
    Faithful texts chain replay.transaction.inputs replay.transaction.commands
      (lib.commands txb) := by
  obtain ⟨⟨arguments, htracks⟩, -⟩ := replay_spec hlib hresolves h
  exact htracks.faithful

/-- **What is accepted**: inputs that are readable, and commands that are accepted behind those
before. -/
theorem replay_ok_iff (hlib : lib.Records)
    (hresolves : Resolves texts chain replay.transaction.inputs replay.objectInputs) :
    (∃ result, replay.replay texts lib = .ok result) ↔
      (∀ input ∈ replay.transaction.inputs, Readable texts chain input) ∧
        AllAcceptable texts replay.transaction.inputs replay.transaction.commands := by
  constructor
  · rintro ⟨⟨outputs, txb⟩, h⟩
    obtain ⟨⟨arguments, htracks⟩, hacceptable⟩ := replay_spec hlib hresolves h
    refine ⟨?_, hacceptable⟩
    intro input hinput
    obtain ⟨index, hindex⟩ := List.mem_iff_getElem?.mp hinput
    obtain ⟨argument, -, ref, hdenote, -⟩ :=
      exists_getElem?_of_forall₂ htracks.arguments.flip hindex
    exact ⟨ref, hdenote⟩
  · rintro ⟨hreadable, hacceptable⟩
    obtain ⟨arguments, b, hinputs⟩ : ∃ arguments b, replayInputs texts lib replay.objectInputs
        replay.transaction.inputs lib.new = .ok (arguments, b) :=
      exists_replayInputs hresolves hreadable
    obtain ⟨outputs, txb, hcommands⟩ :=
      exists_replayCommands hlib (replayInputs_spec hlib hresolves hinputs) hacceptable
    exact ⟨(outputs, txb), Build.bind_eq_ok_iff.mpr ⟨arguments, b, hinputs, hcommands⟩⟩

end Whole

end GemCore.Sui
