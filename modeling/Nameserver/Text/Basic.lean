import Nameserver.Table

/-!
# Text

Every text the server handles is a `Text`, a list of characters, and everything it puts on the
wire is `Bytes`, a list of octets.  Lists keep the functions below structural, so that facts about
names follow by induction on the characters.

**Case.**  Domain names are compared without regard to ASCII case.  `Text.lower` therefore maps
`A` to `Z` only and leaves every other character, accented letters included, as it is.

**Dots.**  A name may be written with trailing dots.  `Text.normalize` drops all of them before it
lowers the case; `Text.parts` splits a name at its dots and keeps empty parts, so that joining the
parts gives the name back (`Text.join_parts`).
-/

namespace Nameserver

/-- A text, character by character. -/
abbrev Text := List Char

/-- Octets, as they are on the wire. -/
abbrev Bytes := List UInt8

namespace Text

/-- The text with the letters `A` to `Z` in lower case. -/
def lower (t : Text) : Text := t.map Char.toLower

/-- The text without the dots at its end. -/
def dropTrailingDots (t : Text) : Text := (t.reverse.dropWhile (· == '.')).reverse

/-- The form under which names are compared: no trailing dots, ASCII letters in lower case. -/
def normalize (t : Text) : Text := (dropTrailingDots t).lower

/-- The pieces between the dots.  There is always at least one, and a piece may be empty. -/
def parts : Text → List Text
  | [] => [[]]
  | c :: t =>
    if c = '.' then [] :: parts t
    else match parts t with
      | [] => [[c]]
      | p :: ps => (c :: p) :: ps

/-- The pieces with a dot between neighbours. -/
def join : List Text → Text
  | [] => []
  | [p] => p
  | p :: q :: ps => p ++ '.' :: join (q :: ps)

/-- A text always has a first piece. -/
theorem parts_ne_nil (t : Text) : parts t ≠ [] := by
  cases t with
  | nil => simp [parts]
  | cons c t =>
    unfold parts
    split
    · simp
    · split <;> simp

/-- Splitting at the dots loses nothing. -/
theorem join_parts (t : Text) : join (parts t) = t := by
  induction t with
  | nil => rfl
  | cons c t ih =>
    obtain ⟨p, ps, hp⟩ := List.exists_cons_of_ne_nil (parts_ne_nil t)
    rw [hp] at ih
    unfold parts
    split
    · rename_i h
      subst h
      rw [hp, join, ih, List.nil_append]
    · rw [hp]
      cases ps <;> simp_all [join]

/-- The text after `ending` has been taken off its end, if it ends so. -/
def dropEnding? (t ending : Text) : Option Text :=
  if ending.isSuffixOf t then some (t.take (t.length - ending.length)) else none

/-- The text after `start` has been taken off its front, if it starts so. -/
def dropStart? (t start : Text) : Option Text :=
  if start.isPrefixOf t then some (t.drop start.length) else none

/-- Whether `name` is `parent` or ends in a dot followed by `parent`. -/
def isSameOrBelow (name parent : Text) : Bool :=
  name == parent ||
    match dropEnding? name parent with
    | some rest => rest.getLast? == some '.'
    | none => false

/-- The texts in the order of their characters, which is also the order of their octets. -/
def sort (texts : List Text) : List Text := sortBy (fun t u => !(u < t)) texts

/-- Decimal digits of a number. -/
def ofNat (n : Nat) : Text := Nat.toDigits 10 n

end Text

end Nameserver
