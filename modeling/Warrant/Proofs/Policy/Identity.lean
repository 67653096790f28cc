import Warrant.Proofs.Codec.Hex
import Warrant.Proofs.Policy.Payload

/-! An identifier is the digest of one reference text, and commits to the whole content. -/

namespace Warrant

/-- Every error about a name repeats that name. -/
theorem Algorithm.ofName_eq_error {name : String} {cause : UnsupportedAlgorithm}
    (failed : ofName name = .error cause) : cause = ⟨name⟩ := by
  -- Only a plain name outside the table ends in an error.
  simp only [ofName] at failed
  split at failed
  · cases failed
  · exact (Except.error.inj failed).symm

/-- Digests of one size come from one function. -/
theorem Algorithm.size_inj {a b : Algorithm} : a.size = b.size ↔ a = b := by
  -- The three sizes are different numbers.
  cases a <;> cases b <;> decide

/-- The capital digits of a digest determine the function and the digest of the text. -/
theorem Digest.ofText_eq_of_lower_upperHex_eq {a b : Algorithm} {first second : List Char}
    (same : Text.lower (ofText a first).upperHex.toList =
      Text.lower (ofText b second).upperHex.toList) :
    a = b ∧ a.hash (utf8 first) = b.hash (utf8 second) := by
  -- Equal digits come from equal bytes, and the number of bytes tells the functions apart.
  simp only [upperHex, ofText, String.toList_ofList] at same
  have bytes := Hex.eq_of_lower_upper_eq same
  have sizes := congrArg List.length bytes
  rw [Algorithm.length_hash, Algorithm.length_hash] at sizes
  exact ⟨Algorithm.size_inj.1 sizes, bytes⟩

/-- An identifier agrees with its own text. -/
theorem PolicyId.agrees_self (id : PolicyId) : id.agrees id.text = true :=
  Text.sameIgnoringCase_iff.2 rfl

namespace Policy

/-- The canonical texts of two contents are different texts with the same digest, by the function
that both contents name. -/
def Collision (h₁ h₂ : String) (o₁ o₂ : Body) (c₁ c₂ : String) : Prop :=
  ∃ algorithm, Algorithm.ofName h₁ = .ok algorithm ∧ Algorithm.ofName h₂ = .ok algorithm ∧
    (payload h₁ o₁ c₁).canonicalText ≠ (payload h₂ o₂ c₂).canonicalText ∧
    algorithm.hash (utf8 (payload h₁ o₁ c₁).canonicalText) =
      algorithm.hash (utf8 (payload h₂ o₂ c₂).canonicalText)

/-- A content does not collide with itself. -/
theorem Collision.irrefl (hashFunction : String) (body : Body) (cost : String) :
    ¬ Collision hashFunction hashFunction body body cost cost := by
  rintro ⟨algorithm, _, _, different, _⟩
  exact different rfl

/-- A content with a known hash function has the capital digits of its digest for an identifier. -/
theorem computeId_of_ofName {hashFunction : String} {algorithm : Algorithm}
    (known : Algorithm.ofName hashFunction = .ok algorithm) (body : Body) (cost : String) :
    computeId hashFunction body cost =
      .ok ⟨(Digest.ofText algorithm (payload hashFunction body cost).canonicalText).upperHex⟩ := by
  -- The payload has a canonical text, so that the other outcome does not occur.
  rw [computeId, known]
  dsimp only [bind, Except.bind]
  split
  · rename_i text outcome
    obtain rfl := Except.ok.inj ((canonical_payload hashFunction body cost).symm.trans outcome)
    rfl
  · rename_i outcome
    nomatch (canonical_payload hashFunction body cost).symm.trans outcome

/-- An identifier that was computed is the digest of the content by the function that it names. -/
theorem of_computeId_eq_ok {hashFunction cost : String} {body : Body} {id : PolicyId}
    (computed : computeId hashFunction body cost = .ok id) :
    ∃ algorithm, Algorithm.ofName hashFunction = .ok algorithm ∧ id.text =
      (Digest.ofText algorithm (payload hashFunction body cost).canonicalText).upperHex := by
  -- Without a known function there is no identifier.
  cases known : Algorithm.ofName hashFunction with
  | error cause =>
    rw [computeId, known] at computed
    cases computed
  | ok algorithm =>
    rw [computeId_of_ofName known, Except.ok.injEq] at computed
    exact ⟨algorithm, rfl, by rw [← computed]⟩

/-- No identifier is computed exactly when the hash function is unknown. -/
theorem computeId_eq_error_iff (hashFunction : String) (body : Body) (cost : String)
    (cause : UnsupportedAlgorithm) :
    computeId hashFunction body cost = .error cause ↔
      Algorithm.ofName hashFunction = .error cause := by
  -- Nothing after the look-up of the name can fail.
  cases known : Algorithm.ofName hashFunction with
  | error other =>
    have failed : computeId hashFunction body cost = .error other := by
      rw [computeId, known]
      rfl
    rw [failed, Except.error.injEq, Except.error.injEq]
  | ok algorithm => simp [computeId_of_ofName known]

/-- The identifier of a content is the digest, in capital digits, of one reference text, in which
the members of every object stand in key order, items in theirs, and the name of the hash function
as it is written. Only a name that stands for no hash function leaves a content without one. -/
theorem computeId_digests_referenceText (hashFunction : String) (body : Body) (cost : String) :
    (∀ cause, computeId hashFunction body cost = .error cause ↔
      Algorithm.ofName hashFunction = .error cause ∧ cause = ⟨hashFunction⟩) ∧
    (payload hashFunction body cost).canonical =
      .ok (payload hashFunction body cost).referenceText ∧
    (payload hashFunction body cost).inKeyOrder.KeysAscend ∧
    (payload hashFunction body cost).inKeyOrder =
      .obj [("cost", .str cost), ("hash_function", .str hashFunction),
        ("policy_object", body.toJson.inKeyOrder)] ∧
    ∀ algorithm, Algorithm.ofName hashFunction = .ok algorithm →
      ∃ id, computeId hashFunction body cost = .ok id ∧
        id.text.toList =
          (algorithm.hash (utf8 (payload hashFunction body cost).referenceText)).flatMap
            (fun byte =>
              [Hex.capitalDigit (byte.toNat / 16), Hex.capitalDigit (byte.toNat % 16)]) ∧
        id.text.length = 2 * algorithm.size := by
  -- The look-up of the name decides on the outcome, and the payload on the text that is digested.
  refine ⟨fun cause => ?_, ?_, Json.keysAscend_inKeyOrder _,
    inKeyOrder_payload hashFunction body cost, ?_⟩
  · -- The cause of a failure is always the name itself.
    rw [computeId_eq_error_iff]
    exact ⟨fun failed => ⟨failed, Algorithm.ofName_eq_error failed⟩, And.left⟩
  · rw [canonical_payload, canonicalText_payload]
  · intro algorithm known
    refine ⟨_, computeId_of_ofName known body cost, ?_, ?_⟩
    · rw [Digest.upperHex, Digest.ofText, String.toList_ofList, Hex.upper_eq_flatMap,
        canonicalText_payload]
    · -- Every byte of the digest takes two digits.
      rw [Digest.upperHex, Digest.ofText, ← String.length_toList, String.toList_ofList,
        Hex.length_upper, Algorithm.length_hash]

/-- The empty body has an identifier of sixty-four digits, also under a name with a blank and
capitals. -/
theorem computeId_digests_emptyBody :
    Algorithm.ofName " SHA-256" = .ok .sha256 ∧
      ∃ id, computeId " SHA-256" Body.empty "1.0" = .ok id ∧ id.text.length = 64 := by
  -- The name is trimmed and put in small letters before it is looked up.
  have known : Algorithm.ofName " SHA-256" = .ok .sha256 := by rfl
  obtain ⟨_, _, _, _, built⟩ := computeId_digests_referenceText " SHA-256" Body.empty "1.0"
  obtain ⟨id, computed, _, length⟩ := built .sha256 known
  exact ⟨known, id, computed, length⟩

/-- Different contents whose identifiers agree up to the case of letters collide. -/
theorem collision_of_agrees {h₁ h₂ c₁ c₂ : String} {o₁ o₂ : Body} {i₁ i₂ : PolicyId}
    (first : computeId h₁ o₁ c₁ = .ok i₁) (second : computeId h₂ o₂ c₂ = .ok i₂)
    (agree : i₁.agrees i₂.text = true) (different : ¬ (h₁ = h₂ ∧ o₁ = o₂ ∧ c₁ = c₂)) :
    Collision h₁ h₂ o₁ o₂ c₁ c₂ := by
  -- Agreeing digits are those of one digest, and different contents have different texts.
  obtain ⟨a, known, digits⟩ := of_computeId_eq_ok first
  obtain ⟨b, otherKnown, otherDigits⟩ := of_computeId_eq_ok second
  rw [PolicyId.agrees, Text.sameIgnoringCase_iff, digits, otherDigits] at agree
  obtain ⟨rfl, sameDigest⟩ := Digest.ofText_eq_of_lower_upperHex_eq agree
  exact ⟨a, known, otherKnown, mt canonicalText_payload_injective different, sameDigest⟩

/-- Under one hash function and one cost the same identifier stands for the same body, or else the
texts collide. -/
theorem computeId_eq_iff {hashFunction cost : String} {o₁ o₂ : Body} {i₁ i₂ : PolicyId}
    (first : computeId hashFunction o₁ cost = .ok i₁)
    (second : computeId hashFunction o₂ cost = .ok i₂) :
    i₁ = i₂ ↔ o₁ = o₂ ∨ Collision hashFunction hashFunction o₁ o₂ cost cost := by
  -- Equal identifiers of different bodies come from equal digests, which makes the texts collide.
  constructor
  · intro same
    by_cases body : o₁ = o₂
    · exact .inl body
    · rw [← same] at second
      exact .inr (collision_of_agrees first second i₁.agrees_self fun content => body content.2.1)
  · intro cause
    rcases cause with body | ⟨algorithm, known, _, _, digest⟩
    · rw [← body, first] at second
      exact Except.ok.inj second
    · -- Texts that collide have one digest, and the identifier shows nothing but the digest.
      rw [computeId_of_ofName known, Digest.ofText, digest] at first
      rw [computeId_of_ofName known, Digest.ofText, first] at second
      exact Except.ok.inj second

/-- Contents whose identifiers agree up to the case of letters are the same in their hash function,
their body and their cost, or else their texts collide. -/
theorem content_eq_or_collision {h₁ h₂ c₁ c₂ : String} {o₁ o₂ : Body} {i₁ i₂ : PolicyId}
    (first : computeId h₁ o₁ c₁ = .ok i₁) (second : computeId h₂ o₂ c₂ = .ok i₂)
    (agree : i₁.agrees i₂.text = true) :
    (h₁ = h₂ ∧ o₁ = o₂ ∧ c₁ = c₂) ∨ Collision h₁ h₂ o₁ o₂ c₁ c₂ := by
  -- Contents that differ in any part have agreeing identifiers by a collision only.
  by_cases same : h₁ = h₂ ∧ o₁ = o₂ ∧ c₁ = c₂
  · exact .inl same
  · exact .inr (collision_of_agrees first second agree same)

/-- Whoever calls too often is denied, and logged. One of two users is granted, and is notified as
long as the time is not over. -/
def guardedBody : Body where
  obligationsOnDeny := some [⟨"obligation", "log"⟩]
  obligationsOnGrant := some []
  deny := .compareWithRequest .lt "execution_num" "3" "execution_num"
  grant := .logical .and [
    .logical .or [.compareWithRequest .eq "public_id" "2f1c" "subject",
      .compareWithRequest .eq "public_id" "90ab" "subject"],
    .conditional (.compareWithRequest .geq "time" "1700003600" "time")
      [⟨"obligation", "notify"⟩] []]

/-- A document of the guarded body with its members in another order and a note among them, in which
the decision leaves its last obligations out. -/
def guardedDocument : Json :=
  let isUser (id : String) : Json := .obj [
    ("attribute_list", .arr [.obj [("value", .str id), ("type", .str "public_id")],
      (Fact.ofRequest "subject").toJson]), ("operation", .str "eq")]
  let deadline : Json := Predicate.operation "geq"
    [(Fact.mk "time" "1700003600").toJson, (Fact.ofRequest "time").toJson]
  .obj [("note", .str "two users, for an hour"),
    ("policy_goc", Predicate.operation "and" [Predicate.operation "or" [isUser "2f1c", isUser "90ab"],
      Predicate.operation "if" [deadline, Obligations.toJson [⟨"obligation", "notify"⟩]]]),
    ("policy_doc", Predicate.operation "lt"
      [(Fact.mk "execution_num" "3").toJson, (Fact.ofRequest "execution_num").toJson]),
    ("obligation_grant", Obligations.toJson []),
    ("obligation_deny", Obligations.toJson [⟨"obligation", "log"⟩])]

/-- The guarded body is read from its document. -/
theorem ofJson_guardedDocument : Body.ofJson guardedDocument = guardedBody := by
  decide +kernel

/-- The guarded body, as it was built and as it was read, has identifiers that agree, and the
contents are the same. -/
theorem content_eq_or_collision_guarded :
    ∃ built read, computeId "sha-256" guardedBody "2.0" = .ok built ∧
      computeId "sha-256" (Body.ofJson guardedDocument) "2.0" = .ok read ∧
      built.agrees read.text = true ∧
      (("sha-256" = "sha-256" ∧ guardedBody = Body.ofJson guardedDocument ∧ "2.0" = "2.0") ∨
        Collision "sha-256" "sha-256" guardedBody (Body.ofJson guardedDocument) "2.0" "2.0") := by
  -- Both contents have an identifier, since their hash function is known.
  have known : Algorithm.ofName "sha-256" = .ok .sha256 := by rfl
  have built := computeId_of_ofName known guardedBody "2.0"
  have read := computeId_of_ofName known (Body.ofJson guardedDocument) "2.0"
  -- Both texts are that of one body.
  have agree : PolicyId.agrees
      ⟨(Digest.ofText .sha256 (payload "sha-256" guardedBody "2.0").canonicalText).upperHex⟩
      (Digest.ofText .sha256
        (payload "sha-256" (Body.ofJson guardedDocument) "2.0").canonicalText).upperHex = true := by
    rw [ofJson_guardedDocument]
    exact PolicyId.agrees_self _
  exact ⟨_, _, built, read, agree, content_eq_or_collision built read agree⟩

end Policy

end Warrant
