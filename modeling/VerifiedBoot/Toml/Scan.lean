/-
Scanning text. A scanner takes a part off the front of a list of characters and gives its meaning
and the characters after it, or it fails. The blanks, line ends and comments between the parts of
a TOML document are scanned here too.
-/

namespace VerifiedBoot
namespace Toml

abbrev Scan := StateT (List Char) Option

namespace Scan

/-! ## Characters -/

/-- The next character, if there is one; it stays in the text. -/
def peek? : Scan (Option Char) := fun cs => some (cs.head?, cs)

def satisfy (p : Char → Bool) : Scan Char
  | c :: cs => if p c then some (c, cs) else none
  | [] => none

/-- The character `c`. -/
def char (c : Char) : Scan Unit := discard (satisfy (· == c))

/-- The characters of `word`, one after another. -/
def word (word : List Char) : Scan Unit := fun cs =>
  if word.isPrefixOf cs then some ((), cs.drop word.length) else none

/-- All characters up to the first without a property. -/
def takeWhile (p : Char → Bool) : Scan (List Char) := fun cs =>
  some (cs.takeWhile p, cs.dropWhile p)

/-- Exactly `n` characters with a property. -/
def exactly (n : Nat) (p : Char → Bool) : Scan (List Char) := fun cs =>
  if (cs.take n).length = n ∧ (cs.take n).all p then some (cs.take n, cs.drop n) else none

def atEnd : Scan Unit := fun cs => if cs.isEmpty then some ((), cs) else none

/-! ## Repetition -/

variable {α : Type}

def opt (item : Scan α) : Scan (Option α) := (some <$> item) <|> pure none

/-- As many parts as there are, at most `n`. -/
def manyUpTo (item : Scan α) : Nat → Scan (List α)
  | 0 => pure []
  | n + 1 => (do return (← item) :: (← manyUpTo item n)) <|> pure []

/-- As many parts as there are. Each takes a character at least, so the length of the text bounds
their number. -/
def many (item : Scan α) : Scan (List α) := do manyUpTo item (← get).length

def separated (item : Scan α) (separator : Scan Unit) : Scan (List α) :=
  (do return (← item) :: (← many (do separator; item))) <|> pure []

/-! ## Between the parts of a document -/

def isBlank (c : Char) : Bool := c == ' ' || c == '\t'

/-- Characters that stand for themselves: the tab, and all but control characters. -/
def isPlain (c : Char) : Bool := c == '\t' || (c.toNat ≥ 0x20 && c.toNat != 0x7f)

def blanks : Scan Unit := discard (takeWhile isBlank)

/-- A line feed, alone or after a carriage return. -/
def newline : Scan Unit := char '\n' <|> word ['\r', '\n']

/-- A comment, up to the end of its line. -/
def comment : Scan Unit := do
  char '#'
  discard (takeWhile isPlain)

/-- What may follow on the line of a statement, and the end of the line or of the text. -/
def lineEnd : Scan Unit := do
  blanks
  discard (opt comment)
  newline <|> atEnd

/-- Blanks, line ends and comments, which may stand between the values of an array. -/
def gap : Scan Unit :=
  discard (many (discard (satisfy isBlank) <|> newline <|> (do comment; newline)))

end Scan
end Toml
end VerifiedBoot
