/-!
Characters and texts. On the way through a text only space and tab are blank and only CR and LF
end a line; NEL, LS and PS are ordinary characters. Settings files go by the wider white space of
Unicode. Columns are counted in characters, and a text that is too wide for its column is kept
whole and pushes what follows it to the right.
-/

namespace TextCursor

namespace Character

/-- Stands where the text has no character. A text may hold it as well. -/
def sentinel : Char := '\x00'

def isBlank (c : Char) : Bool := c == ' ' || c == '\t'

def isTerminator (c : Char) : Bool := c == '\r' || c == '\n'

def isPresent (c : Char) : Bool := c != sentinel

def shown (c : Char) : String :=
  if c = sentinel then "<none>"
  else if c = '\n' then "\\n"
  else if c = '\r' then "\\r"
  else if c = '\t' then "\\t"
  else String.singleton c

theorem blankNotTerminator {c : Char} (h : isBlank c) : isTerminator c = false := by
  simp only [isBlank, Bool.or_eq_true, beq_iff_eq] at h
  rcases h with rfl | rfl <;> rfl

end Character

namespace Text

def alignRight (width : Nat) (text : String) : String :=
  String.ofList (text.toList.leftpad width ' ')

def alignLeft (width : Nat) (text : String) : String :=
  String.ofList (text.toList.rightpad width ' ')

/-- Nanoseconds as milliseconds, rounded to six places at most. -/
def milliseconds (places : Nat) (nanoseconds : Nat) : String :=
  let unit := Nat.pow 10 (6 - places)
  let whole := Nat.pow 10 places
  let count := (nanoseconds + unit / 2) / unit
  toString (count / whole) ++ "."
    ++ String.ofList ((toString (count % whole)).toList.leftpad places '0')

def lines (text : List Char) : List (List Char) := text.splitOn '\n'

/-- First and last code point of each run of characters with the property `White_Space`. -/
def spaceRuns : List (Nat × Nat) :=
  [(0x09, 0x0D), (0x20, 0x20), (0x85, 0x85), (0xA0, 0xA0), (0x1680, 0x1680), (0x2000, 0x200A),
    (0x2028, 0x2029), (0x202F, 0x202F), (0x205F, 0x205F), (0x3000, 0x3000)]

def isSpace (c : Char) : Bool :=
  spaceRuns.any fun (first, last) => decide (first ≤ c.toNat) && decide (c.toNat ≤ last)

def trimStart (text : List Char) : List Char := text.dropWhile isSpace

def trimEnd (text : List Char) : List Char := (text.reverse.dropWhile isSpace).reverse

def trim (text : List Char) : List Char := trimEnd (trimStart text)

def words (text : List Char) : List (List Char) :=
  (text.splitOnP isSpace).filter fun word => !word.isEmpty

end Text

end TextCursor
