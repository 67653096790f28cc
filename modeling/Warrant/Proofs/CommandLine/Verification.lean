import Mathlib.Data.List.Forall2
import Warrant.CommandLine.DiskHost
import Warrant.Proofs.Outcome
import Warrant.Proofs.Policy.Masking
import Warrant.Proofs.Policy.Tampering

/-! What a check of policies reports: one verdict for each entry of a text, and success exactly when
all of them confirm. An entry that declares no identifier is confirmed as well, so that a verdict is
a check of what its entry declares only where the entry declares an identifier. -/

namespace Warrant

/-- Items that are all read and then all checked have results exactly when each of them has one, in
the same order. -/
theorem mapM_bind_mapM_eq_ok_iff {ε α β γ : Type} {read : α → Except ε β}
    {check : β → Except ε γ} {items : List α} {results : List γ} :
    items.mapM read >>= (fun values => values.mapM check) = .ok results ↔
      List.Forall₂ (fun item result => ∃ value, read item = .ok value ∧ check value = .ok result)
        items results := by
  -- The values in between are found one by one, from the first to the last.
  simp only [bind_eq_ok_iff, mapM_eq_ok_iff]
  induction items generalizing results with
  | nil => cases results <;> simp
  | cons item rest ih =>
    rw [List.forall₂_cons_left_iff]
    constructor
    · rintro ⟨_ | ⟨value, values⟩, taken, checked⟩
      · cases taken
      · cases results with
        | nil => cases checked
        | cons result others =>
          obtain ⟨first, behind⟩ := List.cons.inj taken
          obtain ⟨same, last⟩ := List.cons.inj checked
          exact ⟨result, others, ⟨value, first, same⟩, ih.mp ⟨values, behind, last⟩, rfl⟩
    · rintro ⟨result, others, ⟨value, first, same⟩, behind, rfl⟩
      obtain ⟨values, taken, checked⟩ := ih.mpr behind
      refine ⟨value :: values, ?_, ?_⟩
      · rw [List.map_cons, List.map_cons, first, taken]
      · rw [List.map_cons, List.map_cons, same, checked]

namespace Policy

/-- The cost that a document is read to have, which is empty where none is written as a string. -/
def readCost (json : Json) : String :=
  (textMember? json "cost").getD ""

/-- A member is read as no text exactly when it is no string. -/
theorem textMember?_eq_none_iff {json : Json} {key : String} :
    textMember? json key = none ↔ ∀ text, json.member? key ≠ some (.str text) := by
  simp only [Option.eq_none_iff_forall_ne_some, ne_eq, textMember?_eq_some_iff]

/-- A document that names its hash function is read by the string that stands for its identifier, or
given the identifier of its content where none does. -/
theorem ofJson_of_hashFunction {json : Json} {hashFunction : String}
    (known : json.member? "hash_function" = some (.str hashFunction)) :
    ofJson json =
      match textMember? json "policy_id" with
      | some id => .ok ⟨hashFunction, ⟨id⟩, readBody json, readCost json⟩
      | none => (make hashFunction (readBody json) (readCost json)).mapError .unsupported := by
  -- Only an object has a member.
  cases json with
  | obj members => rw [ofJson, textMember?_eq_some_iff.mpr known]; rfl
  | _ => cases known

/-- The identifier that a document declares is kept. -/
theorem ofJson_of_declared {json : Json} {hashFunction declared : String}
    (known : json.member? "hash_function" = some (.str hashFunction))
    (named : json.member? "policy_id" = some (.str declared)) :
    ofJson json = .ok ⟨hashFunction, ⟨declared⟩, readBody json, readCost json⟩ := by
  rw [ofJson_of_hashFunction known, textMember?_eq_some_iff.mpr named]

/-- A document that declares no identifier is given that of its content. -/
theorem ofJson_of_undeclared {json : Json} {hashFunction : String}
    (known : json.member? "hash_function" = some (.str hashFunction))
    (unnamed : ∀ declared, json.member? "policy_id" ≠ some (.str declared)) :
    ofJson json = (make hashFunction (readBody json) (readCost json)).mapError .unsupported := by
  rw [ofJson_of_hashFunction known, textMember?_eq_none_iff.mpr unnamed]

/-- A document that is read names its hash function as a string. -/
theorem exists_hashFunction_of_ofJson {json : Json} {policy : Policy}
    (read : ofJson json = .ok policy) :
    ∃ hashFunction, json.member? "hash_function" = some (.str hashFunction) := by
  -- Without the name of a hash function nothing is read.
  cases named : textMember? json "hash_function" with
  | some hashFunction => exact ⟨hashFunction, textMember?_eq_some_iff.mp named⟩
  | none =>
    rw [ofJson, named] at read
    cases members : json.members? <;> rw [members] at read <;> cases read

end Policy

namespace Verdict

open Policy (textMember? readBody readCost)

/-- The entries of a text of policies: the items of an array, or the value itself. -/
def entriesOf (json : Json) : List Json :=
  json.items?.getD [json]

/-- The identifier of what an entry says, whatever identifier it declares: that of the hash function
that it names, the body and the cost that it is read to have. -/
def IsContentId (entry : Json) (computed : PolicyId) : Prop :=
  ∃ hashFunction, entry.member? "hash_function" = some (.str hashFunction) ∧
    Policy.computeId hashFunction (readBody entry) (readCost entry) = .ok computed

/-- What a verdict says of an entry. -/
inductive Judges (entry : Json) : Verdict → Prop where
  /-- The entry declares the identifier of its content, up to the case of letters. -/
  | agreed {declared : String} {computed : PolicyId}
    (named : entry.member? "policy_id" = some (.str declared))
    (content : IsContentId entry computed)
    (same : PolicyId.agrees ⟨declared⟩ computed.text = true) : Judges entry (.confirmed ⟨declared⟩)
  /-- The entry declares another identifier than that of its content. -/
  | differing {declared : String} {computed : PolicyId}
    (named : entry.member? "policy_id" = some (.str declared))
    (content : IsContentId entry computed)
    (different : PolicyId.agrees ⟨declared⟩ computed.text = false) :
    Judges entry (.mismatch ⟨declared⟩ computed)
  /-- The entry declares no identifier, and is confirmed with that of its content. -/
  | undeclared {computed : PolicyId}
    (unnamed : ∀ declared, entry.member? "policy_id" ≠ some (.str declared))
    (content : IsContentId entry computed) : Judges entry (.confirmed computed)

/-- A verdict checks what an entry declares: it confirms exactly when the entry itself declares, as a
string, the identifier of its content up to the case of letters. -/
def Checks (entry : Json) (verdict : Verdict) : Prop :=
  ∃ computed, IsContentId entry computed ∧
    (verdict.isConfirmed = true ↔ ∃ declared,
      entry.member? "policy_id" = some (.str declared) ∧
        PolicyId.agrees ⟨declared⟩ computed.text = true)

/-- The verdict on a policy compares its identifier with that of its content. -/
theorem ofPolicy_eq_ok_iff {policy : Policy} {verdict : Verdict} :
    ofPolicy policy = .ok verdict ↔ ∃ computed, policy.recomputeId = .ok computed ∧
      verdict = if policy.id.agrees computed.text then .confirmed policy.id
        else .mismatch policy.id computed := by
  -- Only an unknown hash function leaves a policy without a verdict.
  rw [ofPolicy, Policy.verifyId]
  cases policy.recomputeId with
  | error cause =>
    constructor
    · intro same
      cases same
    · rintro ⟨_, same, _⟩
      cases same
  | ok computed =>
    by_cases agree : policy.id.agrees computed.text = true
    · simp only [if_pos agree, Except.ok.injEq, exists_eq_left']
      exact eq_comm
    · simp only [if_neg agree, Except.ok.injEq, exists_eq_left']
      exact eq_comm

/-- An entry is judged by the verdict on the policy that is read from it. -/
theorem judges_iff {entry : Json} {verdict : Verdict} : Judges entry verdict ↔
    ∃ policy, Policy.ofJson entry = .ok policy ∧ ofPolicy policy = .ok verdict := by
  -- One case for each outcome of the judgement, and the same cases for what is declared.
  constructor
  · intro judged
    -- A declared identifier is taken as it stands, and the computed one is compared with it.
    cases judged with
    | agreed named content same =>
      obtain ⟨hashFunction, known, found⟩ := content
      exact ⟨_, Policy.ofJson_of_declared known named,
        ofPolicy_eq_ok_iff.mpr ⟨_, found, (if_pos same).symm⟩⟩
    | differing named content different =>
      obtain ⟨hashFunction, known, found⟩ := content
      exact ⟨_, Policy.ofJson_of_declared known named,
        ofPolicy_eq_ok_iff.mpr ⟨_, found, (if_neg (Bool.eq_false_iff.mp different)).symm⟩⟩
    -- Without a declared one the computed identifier takes its place, and agrees with itself.
    | @undeclared computed unnamed content =>
      obtain ⟨hashFunction, known, found⟩ := content
      refine ⟨⟨hashFunction, computed, readBody entry, readCost entry⟩, ?_,
        ofPolicy_eq_ok_iff.mpr ⟨computed, found, (if_pos computed.agrees_self).symm⟩⟩
      rw [Policy.ofJson_of_undeclared known unnamed]
      exact mapError_eq_ok_iff.mpr (Policy.make_eq_ok_iff.mpr ⟨computed, found, rfl⟩)
  · -- Whether an identifier is declared decides on how the policy was read.
    rintro ⟨policy, read, given⟩
    obtain ⟨hashFunction, known⟩ := Policy.exists_hashFunction_of_ofJson read
    obtain ⟨computed, found, rfl⟩ := ofPolicy_eq_ok_iff.mp given
    by_cases declares : ∃ declared, entry.member? "policy_id" = some (.str declared)
    · obtain ⟨declared, named⟩ := declares
      rw [Policy.ofJson_of_declared known named] at read
      cases read
      split
      · exact .agreed named ⟨hashFunction, known, found⟩ ‹_›
      · exact .differing named ⟨hashFunction, known, found⟩ (Bool.eq_false_iff.mpr ‹_›)
    · -- The identifier was computed, and is compared with itself.
      have unnamed := not_exists.mp declares
      rw [Policy.ofJson_of_undeclared known unnamed] at read
      obtain ⟨id, same, rfl⟩ := Policy.make_eq_ok_iff.mp (mapError_eq_ok_iff.mp read)
      cases same.symm.trans found
      rw [if_pos computed.agrees_self]
      exact .undeclared unnamed ⟨hashFunction, known, found⟩

/-- A text has verdicts exactly when it has a value whose entries are judged by them, one by one. -/
theorem ofText_eq_ok_iff {text : String} {verdicts : List Verdict} :
    ofText text = .ok verdicts ↔
      ∃ json, Json.parse? text = some json ∧ List.Forall₂ Judges (entriesOf json) verdicts := by
  -- A text without a value has no verdicts, and on a value the two walks over the entries are one.
  cases parsed : Json.parse? text with
  | none =>
    rw [ofText, parsed]
    refine iff_of_false (fun same => ?_) (by simp)
    cases same
  | some json =>
    have steps : ofText text = policiesOf json >>= fun policies => policies.mapM ofPolicy := by
      rw [ofText, parsed]
    rw [steps, policiesOf, mapM_bind_mapM_eq_ok_iff]
    simp only [mapError_eq_ok_iff, ← judges_iff, Option.some.injEq, exists_eq_left', entriesOf]

/-- A verdict on an entry checks what the entry declares exactly when the entry declares an
identifier. -/
theorem Judges.checks_iff {entry : Json} {verdict : Verdict} (judged : Judges entry verdict) :
    Checks entry verdict ↔ ∃ declared, entry.member? "policy_id" = some (.str declared) := by
  -- One case for each outcome: only where nothing is declared the check fails to hold.
  cases judged with
  | @agreed declared computed named content same =>
    exact iff_of_true ⟨computed, content, iff_of_true rfl ⟨declared, named, same⟩⟩
      ⟨declared, named⟩
  | @differing declared computed named content different =>
    refine iff_of_true ⟨computed, content, iff_of_false Bool.false_ne_true ?_⟩
      ⟨declared, named⟩
    rintro ⟨other, again, agree⟩
    -- The entry declares one identifier only.
    rw [named, Option.some.injEq, Json.str.injEq] at again
    rw [← again, different] at agree
    cases agree
  | undeclared unnamed content =>
    refine iff_of_false ?_ fun ⟨declared, named⟩ => unnamed declared named
    -- The verdict confirms, and there is nothing that it could have confirmed.
    rintro ⟨_, _, confirmed⟩
    obtain ⟨declared, named, _⟩ := confirmed.mp rfl
    exact unnamed declared named

end Verdict

namespace Program

open Verdict (ofText)

/-- A check of a file on a disk reports the verdicts on its text, and leaves the disk as it is. -/
theorem run_verify_onDisk {disk : Disk} {settings : Settings} {path text : String}
    {verdicts : List Verdict} (held : disk.read? ⟨path⟩ = some text)
    (given : ofText text = .ok verdicts) :
    (run (Host.onDisk settings) (.verify path)).run disk =
      (reportVerdicts (.ok verdicts), disk) := by
  -- The program reads the file and reports, and neither step writes anything.
  have steps : (run (Host.onDisk settings) (.verify path)).run disk =
      (reportVerdicts (verify ⟨path, disk.read? ⟨path⟩⟩), disk) := rfl
  have checked : verify ⟨path, some text⟩ = .ok verdicts := by
    rw [verify, Source.content]
    exact mapError_eq_ok_iff.mpr given
  rw [steps, held, checked]

/-- A report of verdicts ends well exactly when all of them confirm. -/
theorem exitCode_reportVerdicts (verdicts : List Verdict) :
    (reportVerdicts (.ok verdicts)).exitCode = 0 ↔
      ∀ verdict ∈ verdicts, verdict.isConfirmed = true := by
  rw [← List.all_eq_true, reportVerdicts, Outcome.exitCode]
  cases verdicts.all Verdict.isConfirmed <;> simp

end Program

namespace Verdict

/-- An entry like the blank policy that declares a value for its identifier. -/
def blankDeclaring (declared : Json) : Json :=
  .obj [("hash_function", .str "sha-256"), ("policy_id", declared)]

/-- The identifier of the blank policy, in small letters. -/
def blankIdSmall : String := "5281bbe1428db150935f17da91e1650fcc2d15da9f1748be8cdb64b5892d0132"

/-- Two such entries: one declares the identifier of the blank policy in small letters, the other
declares a different one. -/
def pair : Json :=
  .arr [blankDeclaring (.str blankIdSmall), blankDeclaring (.str "0")]

/-- The two entries are read from their compact text. -/
theorem parse?_pair : Json.parse? pair.compact = some pair := by
  -- The pair holds strings only, so that its compact text is read back.
  have exact : pair.IsExact := by
    simp [pair, blankDeclaring, Json.IsExact, Json.ItemsExact, Json.MembersExact]
  rw [Json.parse?_compact exact]
  rfl

/-- What such an entry says is the blank policy. -/
theorem isContentId_blankDeclaring (declared : Json) :
    IsContentId (blankDeclaring declared) Policy.blank.id := by
  -- The content of the entry is the one that the blank policy was made of.
  obtain ⟨id, computed, blank⟩ := Policy.make_eq_ok_iff.mp Policy.make_blank
  refine ⟨"sha-256", rfl, ?_⟩
  rw [blank]
  exact computed

/-- A text that has verdicts has one for each of its entries, in their order. A verdict confirms an
entry that declares the identifier of its content, up to the case of letters, and an entry that
declares none as a string; it checks what the entry declares exactly when the entry declares one.
The command ends with exit code zero exactly when every verdict confirms. -/
theorem reported_one_by_one {text : String} {verdicts : List Verdict}
    (given : ofText text = .ok verdicts) :
    (∃ json, Json.parse? text = some json ∧
      List.Forall₂ (fun entry verdict => Judges entry verdict ∧
        (Checks entry verdict ↔ ∃ declared, entry.member? "policy_id" = some (.str declared)))
        (entriesOf json) verdicts) ∧
    ∀ (disk : Disk) (settings : Settings) (path : String), disk.read? ⟨path⟩ = some text →
      ∃ outcome,
        (Program.run (Host.onDisk settings) (.verify path)).run disk = (outcome, disk) ∧
        outcome.lines = verdicts.map line ∧
        (outcome.exitCode = 0 ↔ ∀ verdict ∈ verdicts, verdict.isConfirmed = true) := by
  -- The verdicts are taken from the judgements, and the report from the verdicts.
  obtain ⟨json, parsed, judged⟩ := ofText_eq_ok_iff.mp given
  refine ⟨⟨json, parsed, judged.imp fun _ _ each => ⟨each, each.checks_iff⟩⟩, ?_⟩
  intro disk settings path held
  exact ⟨_, Program.run_verify_onDisk held given, rfl, Program.exitCode_reportVerdicts verdicts⟩

/-- The first of the two entries is confirmed and the second is not, so that the command fails. -/
theorem pair_reported_one_by_one :
    ofText pair.compact = .ok [.confirmed ⟨blankIdSmall⟩, .mismatch ⟨"0"⟩ Policy.blank.id] ∧
      ∃ outcome, (Program.run (Host.onDisk []) (.verify "p.json")).run
          ⟨[(["p.json"], pair.compact)], []⟩ = (outcome, ⟨[(["p.json"], pair.compact)], []⟩) ∧
        outcome.exitCode ≠ 0 := by
  -- Both entries are judged by what they declare, the first in small letters.
  have first : Judges (blankDeclaring (.str blankIdSmall)) (.confirmed ⟨blankIdSmall⟩) :=
    .agreed rfl (isContentId_blankDeclaring _) (by decide +kernel)
  have second : Judges (blankDeclaring (.str "0")) (.mismatch ⟨"0"⟩ Policy.blank.id) :=
    .differing rfl (isContentId_blankDeclaring _) (by decide +kernel)
  have given : ofText pair.compact =
      .ok [.confirmed ⟨blankIdSmall⟩, .mismatch ⟨"0"⟩ Policy.blank.id] :=
    ofText_eq_ok_iff.mpr ⟨_, parse?_pair, .cons first (.cons second .nil)⟩
  obtain ⟨_, reported⟩ := reported_one_by_one given
  obtain ⟨outcome, ran, _, ended⟩ := reported ⟨[(["p.json"], pair.compact)], []⟩ [] "p.json" rfl
  refine ⟨given, outcome, ran, fun well => ?_⟩
  -- The second verdict is no confirmation.
  have confirmed := ended.mp well (.mismatch ⟨"0"⟩ Policy.blank.id) (by simp)
  cases confirmed

/-- A text of the blank policy, whose identifier is a number. -/
def numberedText : String := "\x7b\"hash_function\":\"sha-256\",\"policy_id\":42\x7d"

/-- A policy with a number for its identifier is confirmed, although it declares no identifier that
could have been checked. -/
theorem numbered_not_checked :
    Json.parse? numberedText = some (blankDeclaring (.int 42)) ∧
      ofText numberedText = .ok [.confirmed Policy.blank.id] ∧
      ¬ Checks (blankDeclaring (.int 42)) (.confirmed Policy.blank.id) := by
  -- The identifier is a number, which declares nothing.
  have parsed : Json.parse? numberedText = some (blankDeclaring (.int 42)) := by
    simp only [Json.parse?, numberedText, String.reduceToList]
    rfl
  have unnamed : ∀ declared,
      (blankDeclaring (.int 42)).member? "policy_id" ≠ some (.str declared) := by
    intro declared named
    cases named
  have judged : Judges (blankDeclaring (.int 42)) (.confirmed Policy.blank.id) :=
    .undeclared unnamed (isContentId_blankDeclaring _)
  refine ⟨parsed, ofText_eq_ok_iff.mpr ⟨_, parsed, .cons judged .nil⟩, ?_⟩
  rw [judged.checks_iff]
  rintro ⟨declared, named⟩
  exact unnamed declared named

end Verdict

end Warrant
