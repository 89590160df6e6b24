import Graft.Json.Basic

/-!
# The compact text of a value

No blanks, fields in their order.  In a string the quote, the backslash and the control characters
are escaped, five of these by a letter and the rest by four lower-case hexadecimal digits.
`Json.renderWith also` escapes the characters of `also` in the second way too.
-/

namespace Graft.Json

/-! ## strings -/

def hexDigits (width n : Nat) : String :=
  let digits := Nat.toDigits 16 n
  String.ofList (List.replicate (width - digits.length) '0' ++ digits)

def escapeChar (also : Char → Bool) (c : Char) : String :=
  if c = '"' then "\\\""
  else if c = '\\' then "\\\\"
  else if c = '\n' then "\\n"
  else if c = '\r' then "\\r"
  else if c = '\t' then "\\t"
  else if c = '\x08' then "\\b"
  else if c = '\x0c' then "\\f"
  else if c < ' ' || also c then "\\u" ++ hexDigits 4 c.toNat
  else c.toString

def renderString (also : Char → Bool) (s : String) : String :=
  s.toList.foldl (fun out c => out ++ escapeChar also c) "\"" ++ "\""

/-! ## values -/

mutual

def renderWith (also : Char → Bool) : Json → String
  | .null => "null"
  | .bool true => "true"
  | .bool false => "false"
  | .number n => n.render
  | .string s => renderString also s
  | .array items => "[" ++ ",".intercalate (renderItems also items) ++ "]"
  | .object fields => "\x7b" ++ ",".intercalate (renderFields also fields) ++ "\x7d"

def renderItems (also : Char → Bool) : List Json → List String
  | [] => []
  | item :: rest => renderWith also item :: renderItems also rest

def renderFields (also : Char → Bool) : List (String × Json) → List String
  | [] => []
  | (key, value) :: rest =>
    (renderString also key ++ ":" ++ renderWith also value) :: renderFields also rest

end

def render (value : Json) : String := value.renderWith fun _ => false

end Graft.Json
