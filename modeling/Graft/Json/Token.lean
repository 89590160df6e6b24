import Graft.Json.Basic

/-!
# The tokens of a text

A text is six kinds of punctuation, strings in quotes, and atoms: runs of all other characters
between blanks, punctuation and quotes.  An atom is `null`, `true`, `false` or a number.

* `Scan`            where the scanner stands: between tokens, in an atom, in a string;
* `Scan.step`       one character;
* `Token.ofText?`   all tokens of a text, nothing if one is malformed.

In a string a control character is refused, and so is an escaped surrogate without its partner.
-/

namespace Graft

inductive Token where
  | openArray | closeArray | openObject | closeObject | comma | colon
  | scalar (value : Json)
deriving Repr

namespace Token

def ofPunctuation? : Char → Option Token
  | '[' => some .openArray
  | ']' => some .closeArray
  | '\x7b' => some .openObject
  | '\x7d' => some .closeObject
  | ',' => some .comma
  | ':' => some .colon
  | _ => none

def isBlank (c : Char) : Bool := c == ' ' || c == '\t' || c == '\n' || c == '\r'

def ofAtom? (chars : List Char) : Option Token :=
  if chars = ['n', 'u', 'l', 'l'] then some (.scalar .null)
  else if chars = ['t', 'r', 'u', 'e'] then some (.scalar (.bool true))
  else if chars = ['f', 'a', 'l', 's', 'e'] then some (.scalar (.bool false))
  else (Number.ofText? chars).map fun n => .scalar (.number n)

end Token

/-! ## strings -/

/-- how far an escape has come -/
inductive Escape where
  | plain
  | slash
  /-- `left` hexadecimal digits are missing -/
  | hex (left value : Nat)

/-- the inside of a string: its characters so far, the last one first, and a high surrogate whose
partner must follow -/
structure Scan.Inside where
  chars : List Char
  lead : Option Nat
  escape : Escape

def hexDigit? (c : Char) : Option Nat :=
  if c.isDigit then some (c.toNat - '0'.toNat)
  else if 'a' ≤ c && c ≤ 'f' then some (c.toNat - 'a'.toNat + 10)
  else if 'A' ≤ c && c ≤ 'F' then some (c.toNat - 'A'.toNat + 10)
  else none

def letterEscape? : Char → Option Char
  | '"' => some '"'
  | '\\' => some '\\'
  | '/' => some '/'
  | 'b' => some '\x08'
  | 'f' => some '\x0c'
  | 'n' => some '\n'
  | 'r' => some '\r'
  | 't' => some '\t'
  | _ => none

namespace Scan.Inside

def start : Inside := ⟨[], none, .plain⟩

def text (s : Inside) : String := String.ofList s.chars.reverse

def push (s : Inside) (c : Char) : Inside := ⟨c :: s.chars, none, .plain⟩

/-- takes a code unit: a high surrogate waits, a low one must come after it -/
def unit? (s : Inside) (u : Nat) : Option Inside :=
  let high := 0xd800 ≤ u && u < 0xdc00
  let low := 0xdc00 ≤ u && u < 0xe000
  match s.lead with
  | some h => if low then some (s.push (Char.ofNat (0x10000 + (h - 0xd800) * 0x400 + (u - 0xdc00)))) else none
  | none =>
    if high then some ⟨s.chars, some u, .plain⟩
    else if low then none
    else some (s.push (Char.ofNat u))

/-- a character after a backslash -/
def afterSlash? (s : Inside) (c : Char) : Option Inside :=
  if c = 'u' then some { s with escape := .hex 4 0 }
  else if s.lead.isSome then none
  else (letterEscape? c).map s.push

/-- one character inside the quotes; the closing quote is not among them -/
def step? (s : Inside) (c : Char) : Option Inside :=
  match s.escape with
  | .plain =>
    if c = '\\' then some { s with escape := .slash }
    else if s.lead.isSome || c < ' ' then none
    else some (s.push c)
  | .slash => s.afterSlash? c
  | .hex left value =>
    (hexDigit? c).bind fun d =>
      if left ≤ 1 then s.unit? (value * 16 + d)
      else some { s with escape := .hex (left - 1) (value * 16 + d) }

/-- a quote ends the string unless an escape or a pair is unfinished -/
def closes (s : Inside) : Bool :=
  match s.escape with
  | .plain => s.lead.isNone
  | _ => false

end Scan.Inside

/-! ## the scanner -/

inductive Scan where
  | between
  /-- the characters of an atom, the last one first -/
  | atom (chars : List Char)
  | inside (s : Scan.Inside)

namespace Scan

/-- a character that belongs to no atom; the tokens so far stand last one first -/
def outside? (tokens : List Token) (c : Char) : Option (Scan × List Token) :=
  if Token.isBlank c then some (.between, tokens)
  else if c = '"' then some (.inside .start, tokens)
  else (Token.ofPunctuation? c).map fun token => (.between, token :: tokens)

def isOutside (c : Char) : Bool :=
  Token.isBlank c || c == '"' || (Token.ofPunctuation? c).isSome

/-- one character -/
def step : Scan × List Token → Char → Option (Scan × List Token)
  | (.between, tokens), c =>
    if isOutside c then outside? tokens c else some (.atom [c], tokens)
  | (.atom chars, tokens), c =>
    if isOutside c then (Token.ofAtom? chars.reverse).bind fun token => outside? (token :: tokens) c
    else some (.atom (c :: chars), tokens)
  | (.inside s, tokens), c =>
    if c = '"' && s.closes then some (.between, .scalar (.string s.text) :: tokens)
    else (s.step? c).map fun s => (.inside s, tokens)

/-- the tokens when the text has ended -/
def finish : Scan × List Token → Option (List Token)
  | (.between, tokens) => some tokens.reverse
  | (.atom chars, tokens) => (Token.ofAtom? chars.reverse).map fun token => (token :: tokens).reverse
  | (.inside _, _) => none

end Scan

/-- the tokens of a text -/
def Token.ofText? (text : String) : Option (List Token) :=
  (text.toList.foldlM Scan.step (.between, [])).bind Scan.finish

end Graft
