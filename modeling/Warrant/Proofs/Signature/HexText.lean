import Warrant.Proofs.Codec.Hex
import Warrant.Proofs.Outcome
import Warrant.Proofs.Signature.Base64Text

/-! Keys and signatures in hexadecimal digits: which texts are read, and which of them are the
digits of what is read. -/

namespace Warrant

namespace Hex

variable {α : Type}

/-- A text has so many characters, all of them hexadecimal digits. -/
def IsDigits (count : Nat) (text : List Char) : Prop :=
  text.length = count ∧ ∀ c ∈ text, Text.isHexDigit c = true

/-- When a text is read as a value that has so many hexadecimal digits, and which digits are written
for that value. -/
structure IsForm (count : Nat) (read : String → Except CryptoError α) (write : α → String)
    (text : String) : Prop where
  /-- The text is read when it is in pairs of two digits each, or of a plus sign and a digit, and has
  the right number of characters. -/
  accepted : (∃ value, read text = .ok value) ↔
    InPairs (Text.trim text.toList) ∧ (Text.trim text.toList).length = count
  /-- What is read is written in the digits of the text, as small letters and without signs. -/
  written : ∀ value, read text = .ok value →
    (write value).toList = unsigned (Text.trim text.toList)
  /-- The text itself is written again, in small letters, exactly when it has the right number of
  digits and nothing else. -/
  spelled :
    (∃ value, read text = .ok value ∧ (write value).toList = Text.lower (Text.trim text.toList)) ↔
      IsDigits count (Text.trim text.toList)
  /-- That it has these digits is also what decides whether it is read, unless it is read with a
  plus sign in it. -/
  strict : ((∃ value, read text = .ok value) ↔ IsDigits count (Text.trim text.toList)) ↔
    ¬ ((∃ value, read text = .ok value) ∧ '+' ∈ Text.trim text.toList)

section

variable {size : Nat} {read : String → Except CryptoError α} {write : α → String}
  {bytesOf : α → List UInt8}

/-- What is written in the small digits of its bytes is read back, if those are read. -/
theorem read_write (reads : ∀ text value, read text = .ok value ↔
      Hex.read (Text.trim text.toList) = .ok (bytesOf value))
    (writes : ∀ value, (write value).toList = lower (bytesOf value)) (value : α) :
    read (write value) = .ok value := by
  -- No blank is taken off the digits, which are pairs without a sign.
  obtain ⟨pairs, noSign⟩ := inPairs_lower (bytesOf value)
  rw [reads, writes, Text.trim_of_visible pairs.isBlank_eq_false, read_eq_ok_iff]
  exact ⟨pairs, noSign⟩

/-- Values of so many bytes have a form of twice as many digits, if they are read from the pairs of
digits between blanks that write their bytes, and written in the small digits of these. -/
theorem isForm_of_bytes
    (reads : ∀ text value, read text = .ok value ↔
      Hex.read (Text.trim text.toList) = .ok (bytesOf value))
    (writes : ∀ value, (write value).toList = lower (bytesOf value))
    (sized : ∀ bytes, (∃ value, bytesOf value = bytes) ↔ bytes.length = size) (text : String) :
    IsForm (2 * size) read write text := by
  -- What is read is what spells the bytes, with the signs taken off.
  simp only [read_eq_ok_iff, ← writes] at reads
  have accepted : (∃ value, read text = .ok value) ↔
      InPairs (Text.trim text.toList) ∧ (Text.trim text.toList).length = 2 * size := by
    simp only [reads, exists_and_left]
    refine and_congr_right fun pairs => ⟨?_, fun long => ?_⟩
    · rintro ⟨value, digits⟩
      rw [← length_unsigned, ← digits, writes, length_lower, (sized _).mp ⟨value, rfl⟩]
    · -- There are as many bytes as there are pairs.
      obtain ⟨bytes, found⟩ := pairs.exists_readPairs 0
      have digits := (of_readPairs found).2
      have many : 2 * bytes.length = 2 * size := by
        rw [← length_lower, digits, length_unsigned, long]
      obtain ⟨value, rfl⟩ := (sized bytes).mpr (by omega)
      exact ⟨value, by rw [writes, digits]⟩
  -- Digits only are pairs without a sign.
  have plain : IsDigits (2 * size) (Text.trim text.toList) ↔
      (∃ value, read text = .ok value) ∧ '+' ∉ Text.trim text.toList := by
    rw [accepted]
    constructor
    · rintro ⟨long, digits⟩
      exact ⟨⟨inPairs_of_isHexDigit _ (by omega) digits, long⟩, fun member =>
        absurd (digits '+' member) (by decide)⟩
    · rintro ⟨⟨pairs, long⟩, noSign⟩
      exact ⟨long, fun c member => (pairs.isHexDigit_or_eq c member).resolve_right fun sign =>
        noSign (sign ▸ member)⟩
  refine ⟨accepted, fun value isValue => ((reads text value).mp isValue).2, ?_, ?_⟩
  · rw [plain]
    constructor
    · rintro ⟨value, isValue, same⟩
      rw [((reads text value).mp isValue).2, unsigned_eq_lower_iff] at same
      exact ⟨⟨value, isValue⟩, same⟩
    · rintro ⟨⟨value, isValue⟩, noSign⟩
      refine ⟨value, isValue, ?_⟩
      rw [((reads text value).mp isValue).2, unsigned_eq_lower_iff.mpr noSign]
  · rw [plain, iff_self_and, not_and]

end

end Hex

namespace PublicKey

/-- Bytes are a public key when they are its own. -/
theorem ofBytes_eq_ok_iff {bytes : List UInt8} {key : PublicKey} :
    ofBytes bytes = .ok key ↔ bytes = key.bytes := by
  -- The constructor asks for the number of bytes, which every key carries a proof of.
  unfold ofBytes
  constructor
  · intro accepted
    split at accepted
    · cases accepted
      rfl
    · cases accepted
  · rintro rfl
    exact dif_pos key.size

/-- A public key is read from the pairs of digits of its bytes. -/
theorem ofHex_eq_ok_iff {text : String} {key : PublicKey} :
    ofHex text = .ok key ↔ Hex.read (Text.trim text.toList) = .ok key.bytes := by
  simp only [ofHex, bind_eq_ok_iff, mapError_eq_ok_iff, ofBytes_eq_ok_iff, exists_eq_right]

/-- The digits of a key are those of its bytes. -/
theorem toList_hex (key : PublicKey) : key.hex.toList = Hex.lower key.bytes :=
  String.toList_ofList

/-- Bytes are those of a key when there are 32 of them. -/
theorem exists_bytes_eq_iff {bytes : List UInt8} :
    (∃ key : PublicKey, key.bytes = bytes) ↔ bytes.length = 32 := by
  constructor
  · rintro ⟨key, rfl⟩
    exact key.size
  · exact fun size => ⟨⟨bytes, size⟩, rfl⟩

/-- Keys have a form of 64 digits. -/
theorem isForm_hex (text : String) : Hex.IsForm 64 ofHex hex text :=
  Hex.isForm_of_bytes (fun _ _ => ofHex_eq_ok_iff) toList_hex (fun _ => exists_bytes_eq_iff) text

/-- The digits of a key are read back. -/
theorem ofHex_hex (key : PublicKey) : ofHex key.hex = .ok key :=
  Hex.read_write (fun _ _ => ofHex_eq_ok_iff) toList_hex key

end PublicKey

namespace Signature

/-- A signature is read from the pairs of digits of its bytes. -/
theorem ofHex_eq_ok_iff {text : String} {signature : Signature} :
    ofHex text = .ok signature ↔ Hex.read (Text.trim text.toList) = .ok signature.bytes := by
  simp only [ofHex, bind_eq_ok_iff, mapError_eq_ok_iff, ofBytes_eq_ok_iff, exists_eq_right]

/-- The digits of a signature are those of its bytes. -/
theorem toList_hex (signature : Signature) : signature.hex.toList = Hex.lower signature.bytes :=
  String.toList_ofList

/-- Bytes are those of a signature when there are 64 of them. -/
theorem exists_bytes_eq_iff {bytes : List UInt8} :
    (∃ signature : Signature, signature.bytes = bytes) ↔ bytes.length = 64 := by
  constructor
  · rintro ⟨signature, rfl⟩
    exact signature.size
  · exact fun size => ⟨⟨bytes, size⟩, rfl⟩

/-- Signatures have a form of 128 digits. -/
theorem isForm_hex (text : String) : Hex.IsForm 128 ofHex hex text :=
  Hex.isForm_of_bytes (fun _ _ => ofHex_eq_ok_iff) toList_hex (fun _ => exists_bytes_eq_iff) text

/-- The digits of a signature are read back. -/
theorem ofHex_hex (signature : Signature) : ofHex signature.hex = .ok signature :=
  Hex.read_write (fun _ _ => ofHex_eq_ok_iff) toList_hex signature

end Signature

/-- Keys have a form of 64 hexadecimal digits and signatures one of 128, and both are read back. The
only other texts that are read have a plus sign in place of the first digit of a byte. -/
theorem hex_forms (text : String) :
    (Hex.IsForm 64 PublicKey.ofHex PublicKey.hex text ∧
      ∀ key : PublicKey, PublicKey.ofHex key.hex = .ok key) ∧
    Hex.IsForm 128 Signature.ofHex Signature.hex text ∧
      ∀ signature : Signature, Signature.ofHex signature.hex = .ok signature :=
  ⟨⟨PublicKey.isForm_hex text, PublicKey.ofHex_hex⟩, Signature.isForm_hex text,
    Signature.ofHex_hex⟩

/-- The text of a public key of which every byte is written with a plus sign and one digit. -/
def signedDigits : String :=
  String.ofList (List.replicate 32 ['+', 'f']).flatten

/-- A public key is read from the text of signs and digits, although it has not digits only, and
other digits are written for the key. -/
theorem signedDigits_read :
    ∃ key, PublicKey.ofHex signedDigits = .ok key ∧
      ¬ Hex.IsDigits 64 (Text.trim signedDigits.toList) ∧
      key.hex.toList ≠ Text.lower (Text.trim signedDigits.toList) := by
  -- No blank stands at the ends, so that all the signs and digits come to the reader.
  have characters : signedDigits.toList = (List.replicate 32 ['+', 'f']).flatten :=
    String.toList_ofList
  have visible : ∀ c ∈ signedDigits.toList, Text.isBlank c = false := by
    rw [characters]
    intro c member
    obtain ⟨pair, listed, held⟩ := List.mem_flatten.mp member
    rw [List.eq_of_mem_replicate listed, List.mem_pair] at held
    rcases held with rfl | rfl <;> rfl
  have signed : '+' ∈ (List.replicate 32 ['+', 'f']).flatten := by
    simp
  -- The sign and the digit of a byte are read as fifteen.
  have read : Hex.read (List.replicate 32 ['+', 'f']).flatten = .ok (List.replicate 32 15) := rfl
  rw [Text.trim_of_visible visible, characters]
  refine ⟨⟨List.replicate 32 15, rfl⟩, ?_, ?_, ?_⟩
  · rw [PublicKey.ofHex_eq_ok_iff, Text.trim_of_visible visible, characters, read]
  · exact fun digits => absurd (digits.2 '+' signed) (by decide)
  · rw [PublicKey.hex, String.toList_ofList, (Hex.read_eq_ok_iff.mp read).2]
    exact mt Hex.unsigned_eq_lower_iff.mp (not_not_intro signed)

end Warrant
