import Warrant.Proofs.FirstFault
import Warrant.Proofs.Rule.Nesting
import Warrant.Proofs.Time.Universal
import Warrant.Rule.Spec

/-! Rules that are built from what is written: a written rule is turned down for the first fault in
it, and the predicate of a rule that is built is a translation of what is written. -/

namespace Warrant

/-- The time of the request lies between two seconds. -/
def Predicate.between (start finish : Int) : Predicate :=
  .logical .and [
    .compareWithRequest .leq "time" (String.ofList (Text.integer start)) "time",
    .compareWithRequest .geq "time" (String.ofList (Text.integer finish)) "time"]

/-- The predicate of a window depends on the seconds of its bounds. -/
theorem Window.predicate_eq_between (window : Window) :
    window.predicate = .between window.start.second window.finish.second :=
  rfl

/-- No window of a rule is inverted, however deep it stands. -/
def Rule.Ordered (rule : Rule) : Prop :=
  ∀ part : Rule, part.Within rule → ∀ window : Window, part.constraint = .time window →
    window.start ≤ window.finish

/-- A rule is ordered exactly when its own window is not inverted and its members are ordered. -/
theorem Rule.ordered_iff {rule : Rule} : rule.Ordered ↔
    (∀ window : Window, rule.constraint = .time window → window.start ≤ window.finish) ∧
      ∀ member ∈ rule.constraint.members, member.Ordered := by
  -- What stands within a rule is the rule itself or stands within one of its members.
  constructor
  · intro ordered
    exact ⟨ordered rule .whole, fun member held part within => ordered part (.member held within)⟩
  · rintro ⟨here, inside⟩ part within
    cases within with
    | whole => exact here
    | member held within => exact inside _ held part within

namespace RuleSpec

mutual

/-- A written rule and all rules within it, in the order in which they are written. -/
def parts : RuleSpec → List RuleSpec
  | .time start finish => [.time start finish]
  | .location draft => [.location draft]
  | .cap max => [.cap max]
  | .group satisfy rules => .group satisfy rules :: partsOf rules

/-- The parts of written rules one after the other. -/
def partsOf : List RuleSpec → List RuleSpec
  | [] => []
  | spec :: rest => spec.parts ++ partsOf rest

end

/-- What is at fault with a written rule itself, whatever stands within it. -/
inductive AtFault : RuleSpec → SpecFault → Prop where
  | start {start finish : String} {cause : InvalidInstant}
    (unread : Instant.readUniversal start = .error cause) :
    AtFault (.time start finish) (.start cause)
  | finish {start finish : String} {t : Instant} {cause : InvalidInstant}
    (read : Instant.readUniversal start = .ok t)
    (unread : Instant.readUniversal finish = .error cause) :
    AtFault (.time start finish) (.finish cause)
  | location {draft : GeofenceDraft} {cause : Rejection} (invalid : draft.validate = .error cause) :
    AtFault (.location draft) (.rejected cause)
  | group (satisfy : Satisfy) : AtFault (.group satisfy []) (.rejected .emptyGroup)

/-- Both texts of every window within a written rule are universal times, every circle is valid, and
no group is empty. -/
structure Sound (spec : RuleSpec) : Prop where
  time : ∀ start finish, .time start finish ∈ spec.parts →
    (∃ t, Instant.readUniversal start = .ok t) ∧ ∃ t, Instant.readUniversal finish = .ok t
  location : ∀ draft, .location draft ∈ spec.parts → ∃ fence, draft.validate = .ok fence
  group : ∀ satisfy, .group satisfy [] ∉ spec.parts

/-- What a written rule stands for. -/
inductive StandsFor : RuleSpec → Predicate → Prop where
  /-- Two instants in their order stand for the time between them. -/
  | time {start finish : String} {s f : Instant} (readStart : Instant.readUniversal start = .ok s)
    (readFinish : Instant.readUniversal finish = .ok f) (ordered : s ≤ f) :
    StandsFor (.time start finish) (.between s.second f.second)
  /-- Otherwise the later bound counts, with the hour before it. -/
  | lastHour {start finish : String} {s f : Instant}
    (readStart : Instant.readUniversal start = .ok s)
    (readFinish : Instant.readUniversal finish = .ok f) (inverted : f < s) :
    StandsFor (.time start finish) (.between (f.second - 3600) f.second)
  /-- A circle stands for a place in it. -/
  | location {draft : GeofenceDraft} {fence : Geofence} (valid : draft.validate = .ok fence) :
    StandsFor (.location draft)
      (.compareWithRequest .geq "geolocation" fence.value "geolocation")
  /-- A cap stands for a count of executions below it. -/
  | cap (max : Nat) :
    StandsFor (.cap max)
      (.compareWithRequest .gt "execution_num" (String.ofList (Text.natural max)) "execution_num")
  /-- A single rule stands for itself. -/
  | single {satisfy : Satisfy} {spec : RuleSpec} {tree : Predicate} (only : StandsFor spec tree) :
    StandsFor (.group satisfy [spec]) tree
  /-- Several rules are joined in their order. -/
  | joined {satisfy : Satisfy} {specs : List RuleSpec} {trees : List Predicate}
    (several : 2 ≤ specs.length) (each : List.Forall₂ StandsFor specs trees) :
    StandsFor (.group satisfy specs) (.logical satisfy.connective trees)

/-- A window that can be read. -/
theorem window_eq_ok_iff {start finish : String} {window : Window} :
    RuleSpec.window start finish = .ok window ↔
      ∃ s, Instant.readUniversal start = .ok s ∧ ∃ f, Instant.readUniversal finish = .ok f ∧
        (Window.startingAt s).setFinish f = window := by
  simp only [RuleSpec.window, bind_eq_ok_iff, mapError_eq_ok_iff, pure, Except.pure,
    Except.ok.injEq]

/-- A window is turned down for the first of its bounds that cannot be read. -/
theorem window_eq_error_iff {start finish : String} {fault : SpecFault} :
    RuleSpec.window start finish = .error fault ↔ AtFault (.time start finish) fault := by
  -- The two texts are read one after the other, each with an error of its own.
  simp only [RuleSpec.window, bind_eq_error_iff, mapError_eq_ok_iff, mapError_eq_error_iff]
  -- The finish is read only when the start has been.
  constructor
  · rintro (⟨cause, unread, rfl⟩ | ⟨s, read, ⟨cause, unread, rfl⟩ | ⟨f, _, made⟩⟩)
    · exact .start unread
    · exact .finish read unread
    · cases made
  · intro atFault
    cases atFault with
    | start unread => exact .inl ⟨_, unread, rfl⟩
    | finish read unread => exact .inr ⟨_, read, .inl ⟨_, unread, rfl⟩⟩

/-- A circle is turned down when its draft is. -/
theorem location_eq_error_iff {draft : GeofenceDraft} {fault : SpecFault} :
    draft.validate.mapError .rejected = .error fault ↔ AtFault (.location draft) fault := by
  -- The draft is all that is read.
  rw [mapError_eq_error_iff]
  constructor
  · rintro ⟨cause, invalid, rfl⟩
    exact .location invalid
  · intro atFault
    cases atFault with
    | location invalid => exact ⟨_, invalid, rfl⟩

/-- Several rules are built one after the other, with the identifiers that are left. -/
theorem toRules_cons_eq_ok_iff {spec : RuleSpec} {rest : List RuleSpec} {count : Nat}
    {built : List Rule × Nat} : toRules count (spec :: rest) = .ok built ↔
      ∃ rule next rules last, toRule count spec = .ok (rule, next) ∧
        toRules next rest = .ok (rules, last) ∧ (rule :: rules, last) = built := by
  -- Building is two steps for each rule, of which both must succeed.
  rw [toRules]
  constructor
  · intro accepted
    obtain ⟨⟨rule, next⟩, first, accepted⟩ := bind_eq_ok_iff.mp accepted
    obtain ⟨⟨rules, last⟩, others, made⟩ := bind_eq_ok_iff.mp accepted
    cases made
    exact ⟨rule, next, rules, last, first, others, rfl⟩
  · rintro ⟨rule, next, rules, last, first, others, rfl⟩
    exact bind_eq_ok_iff.mpr ⟨_, first, bind_eq_ok_iff.mpr ⟨_, others, rfl⟩⟩

/-- As many rules are built as are written. -/
theorem length_of_toRules {specs : List RuleSpec} {count : Nat} {built : List Rule × Nat}
    (accepted : toRules count specs = .ok built) : built.1.length = specs.length := by
  -- By induction on what is written, as one rule is built of each.
  induction specs generalizing count built with
  | nil =>
    cases accepted
    rfl
  | cons spec rest ih =>
    obtain ⟨rule, next, rules, last, _, others, rfl⟩ := toRules_cons_eq_ok_iff.mp accepted
    rw [List.length_cons, List.length_cons, ih others]

/-- A group is built of the rules within it, of which there is at least one. -/
theorem toRule_group_eq_ok_iff {satisfy : Satisfy} {specs : List RuleSpec} {count : Nat}
    {built : Rule × Nat} : toRule count (.group satisfy specs) = .ok built ↔
      ∃ first rest next, toRules count specs = .ok (first :: rest, next) ∧
        (⟨freshId next, .group satisfy first rest⟩, next + 1) = built := by
  -- The members are built first, and the group takes the identifier after theirs.
  rw [toRule, bind_eq_ok_iff]
  -- Without members there is no group.
  constructor
  · rintro ⟨⟨members, next⟩, accepted, made⟩
    cases members with
    | nil => cases made
    | cons first rest =>
      cases made
      exact ⟨first, rest, next, accepted, rfl⟩
  · rintro ⟨first, rest, next, accepted, rfl⟩
    exact ⟨_, accepted, rfl⟩

/-- A group is turned down for a fault of the rules within it, or because there are none. -/
theorem toRule_group_eq_error_iff {satisfy : Satisfy} {specs : List RuleSpec} {count : Nat}
    {fault : SpecFault} : toRule count (.group satisfy specs) = .error fault ↔
      toRules count specs = .error fault ∨ AtFault (.group satisfy specs) fault := by
  -- Either the members fail, or they are built and there are none.
  rw [toRule, bind_eq_error_iff]
  -- As many rules are built as are written, so that only a group without rules has no members.
  refine or_congr_right ⟨?_, fun atFault => ?_⟩
  · rintro ⟨⟨members, next⟩, built, failed⟩
    cases members with
    | nil =>
      obtain rfl := List.length_eq_zero_iff.mp (length_of_toRules built).symm
      cases failed
      exact .group satisfy
    | cons first rest => cases failed
  · cases atFault
    exact ⟨([], count), rfl, rfl⟩

mutual

/-- A written rule is turned down for the first fault in it. -/
theorem toRule_eq_error_iff : ∀ (spec : RuleSpec) (count : Nat) (fault : SpecFault),
    spec.toRule count = .error fault ↔ FirstFault AtFault spec.parts fault
  -- By induction on the nesting of groups. The identifiers play no part in it.
  | .time start finish, count, fault => by
    rw [toRule, parts, firstFault_singleton_iff, ← window_eq_error_iff]
    exact bind_eq_error_iff_left fun _ built => by cases built
  | .location draft, count, fault => by
    rw [toRule, parts, firstFault_singleton_iff, ← location_eq_error_iff]
    exact bind_eq_error_iff_left fun _ built => by cases built
  | .cap max, count, fault => by
    rw [toRule, parts, firstFault_singleton_iff]
    exact iff_of_false (fun built => by cases built) nofun
  | .group satisfy specs, count, fault => by
    rw [toRule_group_eq_error_iff, parts, firstFault_cons_iff, ← toRules_eq_error_iff specs count,
      or_comm]
    -- Where the rules of a group are at fault there are some, so that the group itself is not.
    refine or_congr_right (and_iff_right_of_imp fun failed other atFault => ?_).symm
    cases atFault
    cases failed

/-- Written rules are turned down for the first fault in them. -/
theorem toRules_eq_error_iff : ∀ (specs : List RuleSpec) (count : Nat) (fault : SpecFault),
    toRules count specs = .error fault ↔ FirstFault AtFault (partsOf specs) fault
  -- By recursion along the rules, together with the recursion into each of them.
  | [], count, fault => iff_of_false nofun not_firstFault_nil
  | spec :: rest, count, fault => by
    -- The parts of the first rule come before those of the others.
    rw [toRules, partsOf]
    refine bind_eq_error_iff_firstFault (toRule_eq_error_iff spec count) fun ⟨_, next⟩ _ => ?_
    rw [← toRules_eq_error_iff rest next]
    exact bind_eq_error_iff_left fun _ built => by cases built

end

/-- A written rule is sound exactly when nothing within it is at fault. -/
theorem sound_iff {spec : RuleSpec} :
    spec.Sound ↔ ∀ part ∈ spec.parts, ∀ fault, ¬ part.AtFault fault := by
  -- Each kind of fault denies one of the conditions, and each condition is denied by some fault.
  constructor
  · intro sound part inside fault atFault
    cases atFault with
    | start unread =>
      exact exists_eq_ok_iff.mp (sound.time _ _ inside).1 _ unread
    | finish read unread =>
      exact exists_eq_ok_iff.mp (sound.time _ _ inside).2 _ unread
    | location invalid => exact exists_eq_ok_iff.mp (sound.location _ inside) _ invalid
    | group satisfy => exact sound.group satisfy inside
  · -- What is not at fault has been read or is valid, since there is no third outcome.
    intro innocent
    refine ⟨fun start finish inside => ?_, fun draft inside => ?_, fun satisfy inside => ?_⟩
    · obtain ⟨s, read⟩ : ∃ t, Instant.readUniversal start = .ok t :=
        exists_eq_ok_iff.mpr fun _ unread => innocent _ inside _ (.start unread)
      exact ⟨⟨s, read⟩,
        exists_eq_ok_iff.mpr fun _ unread => innocent _ inside _ (.finish read unread)⟩
    · exact exists_eq_ok_iff.mpr fun _ invalid => innocent _ inside _ (.location invalid)
    · exact innocent _ inside _ (.group satisfy)

/-- A rule is built exactly when what is written is sound. -/
theorem exists_toRule_eq_ok_iff (spec : RuleSpec) (count : Nat) :
    (∃ built, spec.toRule count = .ok built) ↔ spec.Sound := by
  -- A rule is built unless there is a first fault, and there is one if anything is at fault.
  have faults := (exists_congr (toRule_eq_error_iff spec count)).trans exists_firstFault_iff
  rw [exists_eq_ok_iff, sound_iff, ← not_exists, faults]
  simp only [not_exists, not_and]

/-- The predicate of an hour whose end is moved to an instant that was read. -/
theorem predicate_setFinish {text : String} {s f : Instant}
    (read : Instant.readUniversal text = .ok f) :
    ((Window.startingAt s).setFinish f).predicate =
      .between (if f < s then f.second - 3600 else s.second) f.second := by
  -- The finish drags the start along exactly when it comes before it.
  obtain ⟨whole, room⟩ := Instant.of_readUniversal read
  obtain ⟨stays, dragged⟩ := Window.start_setFinish (Window.startingAt s) f
  rw [Window.predicate_eq_between]
  -- An instant that was read has an hour before it in which the start finds room.
  by_cases inverted : f < s
  · rw [dragged inverted, Window.second_shifted_neg_one whole room, if_pos inverted]
    rfl
  · rw [stays (Instant.not_lt.mp inverted), if_neg inverted]
    rfl

/-- A written window stands for the predicate of the window that is built of it. -/
theorem standsFor_time_iff {start finish : String} {tree : Predicate} :
    StandsFor (.time start finish) tree ↔
      ∃ window, RuleSpec.window start finish = .ok window ∧ window.predicate = tree := by
  -- The two forms of a window are the two cases of the finish that is set.
  constructor
  · intro stands
    cases stands with
    | time readStart readFinish ordered =>
      refine ⟨_, window_eq_ok_iff.mpr ⟨_, readStart, _, readFinish, rfl⟩, ?_⟩
      rw [predicate_setFinish readFinish, if_neg (Instant.not_lt.mpr ordered)]
    | lastHour readStart readFinish inverted =>
      refine ⟨_, window_eq_ok_iff.mpr ⟨_, readStart, _, readFinish, rfl⟩, ?_⟩
      rw [predicate_setFinish readFinish, if_pos inverted]
  · rintro ⟨_, read, rfl⟩
    obtain ⟨s, readStart, f, readFinish, rfl⟩ := window_eq_ok_iff.mp read
    rw [predicate_setFinish readFinish]
    split
    · exact .lastHour readStart readFinish ‹_›
    · exact .time readStart readFinish (Instant.not_lt.mp ‹_›)

/-- A written group stands for the combination of what the rules within it stand for. -/
theorem standsFor_group_iff {satisfy : Satisfy} {specs : List RuleSpec} {tree : Predicate} :
    StandsFor (.group satisfy specs) tree ↔ ∃ trees, List.Forall₂ StandsFor specs trees ∧
      trees ≠ [] ∧ .combine satisfy.connective trees = tree := by
  -- A single rule stands for itself, and several are joined.
  constructor
  · intro stands
    cases stands with
    | single only => exact ⟨_, .cons only .nil, List.cons_ne_nil _ _, rfl⟩
    | joined several each =>
      rw [each.length_eq] at several
      exact ⟨_, each, List.ne_nil_of_length_pos (by omega),
        Predicate.combine_of_two_le _ several⟩
  · -- The number of rules decides on the form of the combination.
    rintro ⟨trees, each, present, rfl⟩
    rcases each with _ | ⟨first, _ | ⟨second, rest⟩⟩
    · exact absurd rfl present
    · exact .single first
    · exact .joined (by simp) (.cons first (.cons second rest))

mutual

/-- A written rule stands for the predicate of the rule that is built of it, and for nothing if none
is built. -/
theorem standsFor_iff : ∀ (spec : RuleSpec) (count : Nat) (tree : Predicate),
    spec.StandsFor tree ↔ ∃ built, toRule count spec = .ok built ∧ built.1.predicate = tree
  -- By induction on the nesting of groups, for all identifiers that are still free.
  -- A window is translated by the finish that was set.
  | .time start finish, count, tree => by
    rw [standsFor_time_iff, toRule]
    constructor
    · rintro ⟨window, read, rfl⟩
      exact ⟨_, bind_eq_ok_iff.mpr ⟨window, read, rfl⟩, rfl⟩
    · rintro ⟨built, accepted, rfl⟩
      obtain ⟨window, read, made⟩ := bind_eq_ok_iff.mp accepted
      cases made
      exact ⟨window, read, rfl⟩
  -- A circle stands for the predicate of its draft, once that is valid.
  | .location draft, count, tree => by
    rw [toRule]
    constructor
    · intro stands
      cases stands with
      | location valid => exact ⟨_, bind_eq_ok_iff.mpr ⟨_, mapError_eq_ok_iff.mpr valid, rfl⟩, rfl⟩
    · rintro ⟨built, accepted, rfl⟩
      obtain ⟨fence, valid, made⟩ := bind_eq_ok_iff.mp accepted
      cases made
      exact .location (mapError_eq_ok_iff.mp valid)
  | .cap max, count, tree => by
    rw [toRule]
    constructor
    · intro stands
      cases stands
      exact ⟨_, rfl, rfl⟩
    · rintro ⟨built, accepted, rfl⟩
      cases accepted
      exact .cap max
  -- The members are translated by the induction, one after the other.
  | .group satisfy specs, count, tree => by
    simp only [standsFor_group_iff, forall₂_standsFor_iff specs count, toRule_group_eq_ok_iff]
    constructor
    · rintro ⟨_, ⟨⟨rules, next⟩, members, rfl⟩, present, rfl⟩
      cases rules with
      | nil => exact absurd rfl present
      | cons first rest =>
        exact ⟨_, ⟨first, rest, next, members, rfl⟩, Constraint.predicate_group satisfy first rest⟩
    · rintro ⟨_, ⟨first, rest, next, members, rfl⟩, rfl⟩
      exact ⟨_, ⟨_, members, rfl⟩, List.cons_ne_nil _ _,
        (Constraint.predicate_group satisfy first rest).symm⟩

/-- Written rules stand one by one for the predicates of the rules that are built of them. -/
theorem forall₂_standsFor_iff : ∀ (specs : List RuleSpec) (count : Nat) (trees : List Predicate),
    List.Forall₂ StandsFor specs trees ↔
      ∃ built, toRules count specs = .ok built ∧ built.1.map Rule.predicate = trees
  -- By recursion along the rules, which are built with the identifiers that are left.
  | [], count, trees => by
    rw [List.forall₂_nil_left_iff]
    constructor
    · rintro rfl
      exact ⟨([], count), rfl, rfl⟩
    · rintro ⟨_, accepted, rfl⟩
      cases accepted
      rfl
  | spec :: rest, count, trees => by
    simp only [List.forall₂_cons_left_iff, toRules_cons_eq_ok_iff, standsFor_iff spec count]
    constructor
    · rintro ⟨_, others, ⟨⟨rule, next⟩, first, rfl⟩, behind, rfl⟩
      obtain ⟨⟨rules, last⟩, later, rfl⟩ := (forall₂_standsFor_iff rest next others).mp behind
      exact ⟨_, ⟨rule, next, rules, last, first, later, rfl⟩, rfl⟩
    · rintro ⟨_, ⟨rule, next, rules, last, first, later, rfl⟩, rfl⟩
      exact ⟨_, _, ⟨_, first, rfl⟩, (forall₂_standsFor_iff rest next _).mpr ⟨_, later, rfl⟩, rfl⟩

end

mutual

/-- No window of a rule that is built is inverted. -/
theorem ordered_of_toRule : ∀ (spec : RuleSpec) {count : Nat} {built : Rule × Nat},
    toRule count spec = .ok built → built.1.Ordered
  -- By induction on the nesting of groups. Every window comes of an edit, and these invert none.
  | .time start finish, count, built, accepted => by
    obtain ⟨window, read, made⟩ := bind_eq_ok_iff.mp accepted
    obtain ⟨s, _, f, _, rfl⟩ := window_eq_ok_iff.mp read
    cases made
    refine Rule.ordered_iff.mpr ⟨fun window same => ?_, fun _ held => by cases held⟩
    cases same
    exact Window.start_le_finish_apply _ (.finish f)
  | .location draft, count, built, accepted => by
    obtain ⟨fence, _, made⟩ := bind_eq_ok_iff.mp accepted
    cases made
    exact Rule.ordered_iff.mpr ⟨fun _ same => (by cases same), fun _ held => (by cases held)⟩
  | .cap max, count, built, accepted => by
    cases accepted
    exact Rule.ordered_iff.mpr ⟨fun _ same => (by cases same), fun _ held => (by cases held)⟩
  | .group satisfy specs, count, built, accepted => by
    obtain ⟨first, rest, next, members, rfl⟩ := toRule_group_eq_ok_iff.mp accepted
    exact Rule.ordered_iff.mpr ⟨fun _ same => (by cases same), ordered_of_toRules specs members⟩

/-- No window of rules that are built is inverted. -/
theorem ordered_of_toRules : ∀ (specs : List RuleSpec) {count : Nat} {built : List Rule × Nat},
    toRules count specs = .ok built → ∀ rule ∈ built.1, rule.Ordered
  -- By recursion along the rules, together with the recursion into each of them.
  | [], _, _, accepted => by
    cases accepted
    exact List.forall_mem_nil _
  | spec :: rest, count, built, accepted => by
    obtain ⟨rule, next, rules, last, first, others, rfl⟩ := toRules_cons_eq_ok_iff.mp accepted
    exact List.forall_mem_cons.mpr ⟨ordered_of_toRule spec first, ordered_of_toRules rest others⟩

end

/-- A rule is built exactly when both texts of every window within what is written are universal
times, every circle is valid and no group is empty; otherwise the first fault is reported, in the
order in which it is written. The predicate of a rule that is built is what is written, translated
part by part, and no window of it is inverted. -/
theorem toRule_translates (spec : RuleSpec) (count : Nat) :
    ((∃ built, spec.toRule count = .ok built) ↔ spec.Sound) ∧
    (∀ fault, spec.toRule count = .error fault ↔ FirstFault AtFault spec.parts fault) ∧
    ∀ rule next, spec.toRule count = .ok (rule, next) →
      (∀ tree, spec.StandsFor tree ↔ rule.predicate = tree) ∧ rule.Ordered := by
  -- The conditions and the faults are settled above, and the tree is that of the one rule built.
  refine ⟨exists_toRule_eq_ok_iff spec count, toRule_eq_error_iff spec count,
    fun rule next accepted => ⟨fun tree => ?_, ordered_of_toRule spec accepted⟩⟩
  rw [standsFor_iff spec count]
  -- There is only one rule that is built.
  constructor
  · rintro ⟨_, same, rfl⟩
    rw [accepted] at same
    cases same
    rfl
  · rintro rfl
    exact ⟨_, accepted, rfl⟩

/-- One hour in the morning of a day, as its end comes before its start, or less than three
executions, with a group around the cap. -/
def morningSpec : RuleSpec :=
  .group .any [.time "2024-01-01T18:00:00Z" "2024-01-01T08:00:00Z", .group .all [.cap 3]]

/-- The hour before eight in the morning, or less than three executions. -/
def morningTree : Predicate :=
  .logical .or [.between (1704096000 - 3600) 1704096000,
    .compareWithRequest .gt "execution_num" "3" "execution_num"]

/-- A written rule whose second part is at fault, and the third as well. -/
def faultySpec : RuleSpec :=
  .group .all [.cap 3, .time "2024-01-01T08:00:00Z" "noon", .group .any []]

/-- The rule of one hour in the morning is built, and of the faults of the other one the first is
reported. -/
theorem toRule_morningSpec :
    (∃ rule next, morningSpec.toRule 0 = .ok (rule, next) ∧ rule.predicate = morningTree ∧
      rule.Ordered) ∧
    faultySpec.toRule 0 = .error (.finish (.notUniversal "noon")) ∧
    FirstFault AtFault faultySpec.parts (.finish (.notUniversal "noon")) := by
  -- The times are read once, and the finish turns out to come before the start.
  have evening : Instant.readUniversal "2024-01-01T18:00:00Z" =
      .ok ⟨1704132000, 0, by decide, by decide⟩ := by rfl
  have morning : Instant.readUniversal "2024-01-01T08:00:00Z" =
      .ok ⟨1704096000, 0, by decide, by decide⟩ := by rfl
  have lastHour := StandsFor.lastHour evening morning (by decide)
  have stands : morningSpec.StandsFor morningTree :=
    .joined (by decide) (.cons lastHour (.cons (.single (.cap 3)) .nil))
  obtain ⟨⟨rule, next⟩, built, _⟩ := (standsFor_iff morningSpec 0 morningTree).mp stands
  obtain ⟨translated, ordered⟩ := (toRule_translates morningSpec 0).2.2 rule next built
  have failed : faultySpec.toRule 0 = .error (.finish (.notUniversal "noon")) := by rfl
  exact ⟨⟨rule, next, built, (translated morningTree).mp stands, ordered⟩, failed,
    ((toRule_translates faultySpec 0).2.1 _).mp failed⟩

end RuleSpec

end Warrant
