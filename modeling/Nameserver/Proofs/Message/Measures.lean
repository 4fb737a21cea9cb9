import Nameserver.Proofs.Message.Transcript
import Nameserver.Proofs.Text.WellFormed

/-!
# Sizes told before writing

A response adds a record only if it fits, and it decides so before an octet is written.  The sizes
it goes by are computed from texts and lists, the octets are produced by loops, and
`Record.told_before_written` says that the two agree for whatever is to be written: for names that
have to be cut, for data of every kind, and for whole records.

**Texts.**  The size of a text counts its character strings, so the theorem also says what these
are.  `RecordData.Splits` lists what a reader relies on.  The strings are all full but the last
one, which is what makes their number depend on the size of the text alone.
-/

namespace Nameserver

namespace Name

/-- The octets of a name, counted in its text: every part that is not empty has one for its length
and is cut to the size of a label, and one more ends the name. -/
def measure (name : Text) : Nat :=
  (((Text.parts name).filter fun part => !part.isEmpty).map fun part =>
    min maxLabel (Utf8.size part) + 1).sum + 1

lemma length_flatMap_encodeLabel (labels : List Bytes) :
    (labels.flatMap encodeLabel).length = (labels.map fun label => label.length + 1).sum := by
  rw [List.length_flatMap]
  rfl

/-- A name is written in the octets that are counted in its text. -/
lemma length_encode_eq_measure (name : Text) : (encode name).length = measure name := by
  rw [encode, List.length_append, length_flatMap_encodeLabel, labels, List.map_map, measure]
  simp only [Function.comp_def, List.length_take, List.length_singleton, Utf8.size]

end Name

namespace RecordData

/-- The octets are those of a text behind the lengths of its character strings. -/
structure Splits (octets : Bytes) (text : Text) (strings : List Bytes) : Prop where
  /-- Each string stands behind its length. -/
  written : octets = strings.flatMap fun s => UInt8.ofNat s.length :: s
  /-- A reader that knows the lengths only takes the same strings apart. -/
  read : characterStrings? 0 octets = some strings
  /-- There is a string even for the empty text. -/
  nonempty : strings ≠ []
  bounded : ∀ s ∈ strings, s.length ≤ 255
  /-- Only the last one can be shorter. -/
  full : ∀ s ∈ strings.dropLast, s.length = 255
  flatten : strings.flatten = Utf8.encode text

lemma stringsAfter_of_length_le {skip : Nat} {bytes : Bytes} (h : bytes.length ≤ skip) :
    stringsAfter skip bytes = [] := by
  induction bytes generalizing skip with
  | nil => cases skip <;> rfl
  | cons b rest ih =>
      cases skip with
      | zero => cases h
      | succ skip => exact ih (Nat.le_of_succ_le_succ h)

/-- A string is full if another one comes behind it. -/
lemma length_of_mem_dropLast_stringsAfter {skip : Nat} {bytes s : Bytes}
    (h : s ∈ (stringsAfter skip bytes).dropLast) : s.length = 255 := by
  induction bytes generalizing skip with
  | nil => cases skip <;> cases h
  | cons b rest ih =>
      cases skip with
      | succ skip => exact ih h
      | zero =>
          rw [stringsAfter] at h
          by_cases hlater : stringsAfter (maxString - 1) rest = []
          · rw [hlater] at h
            cases h
          · rw [List.dropLast_cons_of_ne_nil hlater] at h
            rcases List.mem_cons.mp h with rfl | h
            · have hlen : maxString - 1 < rest.length := by
                by_contra hshort
                exact hlater (stringsAfter_of_length_le (Nat.not_lt.mp hshort))
              rw [List.length_cons, List.length_take_of_le hlen.le, maxString]
            · exact ih h

lemma length_of_mem_dropLast_strings {text s : Bytes} (h : s ∈ (strings text).dropLast) :
    s.length = 255 := by
  unfold strings at h
  split_ifs at h
  · cases h
  · exact length_of_mem_dropLast_stringsAfter h

lemma strings_ne_nil (text : Bytes) : strings text ≠ [] := by
  unfold strings
  split_ifs with h
  · exact List.cons_ne_nil _ _
  · obtain ⟨b, rest, rfl⟩ := List.exists_cons_of_ne_nil (List.isEmpty_eq_false_iff.mp
      (Bool.eq_false_of_not_eq_true h))
    exact List.cons_ne_nil _ _

/-- The data of a text is its character strings. -/
lemma splits_encode (text : Text) :
    Splits (RecordData.txt text).encode text (strings (Utf8.encode text)) where
  written := rfl
  read := characterStrings?_flatMap fun _ => length_of_mem_strings
  nonempty := strings_ne_nil _
  bounded _ := length_of_mem_strings
  full _ := length_of_mem_dropLast_strings
  flatten := flatten_strings _

/-- There is one way to split octets into character strings. -/
lemma Splits.unique {octets : Bytes} {text text' : Text} {strings strings' : List Bytes}
    (h : Splits octets text strings) (h' : Splits octets text' strings') :
    strings = strings' ∧ text = text' := by
  have hstrings : strings = strings' := Option.some.inj (h.read.symm.trans h'.read)
  refine ⟨hstrings, Utf8.encode_injective ?_⟩
  rw [← h.flatten, ← h'.flatten, hstrings]

end RecordData

/-- **Sizes are told before anything is written.**  Names, data and records take the octets that
were foretold, and the data of a text is full character strings with a last one behind them. -/
theorem Record.told_before_written :
    (∀ name : Text, (Name.encode name).length = Name.size name ∧
      Name.size name = Name.measure name) ∧
    (∀ data : RecordData, data.encode.length = data.size) ∧
    (∀ record : Record, record.encode.length = record.size) ∧
    ∀ text : Text, ∃! strings, RecordData.Splits (RecordData.txt text).encode text strings := by
  refine ⟨?_, RecordData.length_encode, Record.length_encode, ?_⟩
  · intro name
    have hsize := Name.length_encode name
    exact ⟨hsize, hsize.symm.trans (Name.length_encode_eq_measure name)⟩
  · intro text
    have hsplits := RecordData.splits_encode text
    exact ⟨_, hsplits, fun strings h => (h.unique hsplits).1⟩

end Nameserver
