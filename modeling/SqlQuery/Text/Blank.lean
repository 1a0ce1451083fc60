/-!
# Blank characters

* `isBlank` — the characters with the Unicode property White_Space;
* `trim`, `words` — the two ways in which blanks are skipped: at the ends of a text, and between its words;
* `split`, `cutFirst?` — splitting at every occurrence of a character, and at the first occurrence of a key.

All of it is structural recursion on the list of characters; the functions on `String` are wrappers.
-/

namespace SqlQuery.Text

/-- The 25 characters with the property White_Space. -/
def isBlank (c : Char) : Bool :=
  let n := c.toNat
  (0x09 ≤ n && n ≤ 0x0D) || n == 0x20 || n == 0x85 || n == 0xA0 || n == 0x1680 ||
    (0x2000 ≤ n && n ≤ 0x200A) || n == 0x2028 || n == 0x2029 || n == 0x202F || n == 0x205F ||
    n == 0x3000

/-- Every blank of the standard library is a blank. -/
theorem isBlank_of_isWhitespace {c : Char} (h : c.isWhitespace = true) : isBlank c = true := by
  simp only [Char.isWhitespace, Bool.or_eq_true, decide_eq_true_eq] at h
  rcases h with ((rfl | rfl) | rfl) | rfl <;> decide

/-! ### Trimming -/

/-- The text without the blanks at its start. -/
def trimStart (s : List Char) : List Char :=
  s.dropWhile isBlank

/-- The text without the blanks at its end. -/
def trimEnd (s : List Char) : List Char :=
  (s.reverse.dropWhile isBlank).reverse

/-- The text without the blanks at either end. -/
def trim (s : List Char) : List Char :=
  trimEnd (trimStart s)

/-- A text of blanks only, the empty text included. -/
def onlyBlanks (s : List Char) : Bool :=
  s.all isBlank

/-! ### Splitting -/

/-- The pieces between the characters that satisfy `p`, the empty ones included. -/
def split (p : Char → Bool) : List Char → List (List Char)
  | [] => [[]]
  | c :: cs =>
    if p c then [] :: split p cs
    else
      match split p cs with
      | [] => [[c]]
      | w :: ws => (c :: w) :: ws

theorem split_ne_nil (p : Char → Bool) (s : List Char) : split p s ≠ [] := by
  cases s with
  | nil => simp [split]
  | cons c cs =>
    simp only [split]
    split
    · simp
    · split <;> simp

/-- The words of a text: the non-empty pieces between blanks. -/
def words (s : List Char) : List (List Char) :=
  (split isBlank s).filter (!·.isEmpty)

/-- What stands before and after the first place where the text, read through `fold`, spells `key`. -/
def cutFirst? (fold : Char → Char) (key : List Char) : List Char → Option (List Char × List Char)
  | [] => none
  | c :: cs =>
    if ((c :: cs).take key.length).map fold = key then some ([], (c :: cs).drop key.length)
    else (cutFirst? fold key cs).map fun (before, after) => (c :: before, after)

/-! ### On strings -/

/-- The string without the blanks at either end. -/
def trimmed (s : String) : String :=
  String.ofList (trim s.toList)

/-- A string of blanks only, the empty string included. -/
def isBlankText (s : String) : Bool :=
  onlyBlanks s.toList

end SqlQuery.Text
