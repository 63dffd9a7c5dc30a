import AlpSdk.Library.Checked
import AlpSdk.Library.Json

namespace AlpSdk.DrpAi

open Library Library.Json Library.Checked

abbrev JsonValue : Type := Value

-- A function that returns false is refused. It goes astray where it would index a vector
-- outside of it, and where the depth it is cut at here is used up.
abbrev Parsed (α : Type) : Type := Checked Unit α

def refused {α : Type} : Parsed α := fail ()

-- What may stand after a number in a JSON text.
def endsNumber (b : UInt8) : Prop := isWs b = true ∨ b = comma ∨ b = rbracket ∨ b = rbrace

-- The C library's `strtod`, on the bytes up to the end of the text: how many it takes, and the
-- number they spell. Only what it does on an integer below 2^53 in size is relied on.
structure Strtod where
  run : List UInt8 → ℕ × ℤ
  integer : ∀ (neg : Bool) (digits rest : List UInt8), digits ≠ [] →
    (∀ d ∈ digits, isDigit d = true) → decimal digits < 2 ^ 53 → (∀ b ∈ rest.head?, endsNumber b) →
    run (sign neg ++ (digits ++ rest)) =
      ((sign neg ++ digits).length, signed neg (decimal digits))

def skipWs (s : List UInt8) : List UInt8 := s.dropWhile isWs

-- An escape the parser does not know passes its letter through.
def unescape (b : UInt8) : UInt8 :=
  if b = 0x6e then 0x0a
  else if b = 0x74 then 0x09
  else b

def stringBody (acc : List UInt8) : List UInt8 → Parsed (List UInt8 × List UInt8)
  | [] => refused
  | b :: s =>
      if b = quote then pure (acc, s)
      else if b = backslash then
        match s with
        | [] => refused
        | e :: s => stringBody (acc ++ [unescape e]) s
      else stringBody (acc ++ [b]) s

def parseString : List UInt8 → Parsed (List UInt8 × List UInt8)
  | [] => refused
  | b :: s => if b = quote then stringBody [] s else refused

def parseBool (s : List UInt8) : Parsed (JsonValue × List UInt8) :=
  if (boolText true).isPrefixOf s then pure (.bool true, s.drop 4)
  else if (boolText false).isPrefixOf s then pure (.bool false, s.drop 5)
  else refused

def parseNull (s : List UInt8) : Parsed (JsonValue × List UInt8) :=
  if nullText.isPrefixOf s then pure (.null, s.drop 4) else refused

-- The bytes the scan of a number passes, its leading minus among them.
def isNumberByte (b : UInt8) : Bool :=
  isDigit b || b = 0x2e || b = 0x65 || b = 0x45 || b = 0x2b || b = minus

def parseNumber (strtod : Strtod) (s : List UInt8) : Parsed (JsonValue × List UInt8) :=
  let token := s.takeWhile isNumberByte
  if token = [] then refused
  else if (strtod.run s).1 ≠ token.length then refused
  else pure (.number (strtod.run s).2, s.drop token.length)

-- `parse_object` and `parse_array` from their first byte on; `loop` is their `for (;;)`.
def parseObject (loop : List UInt8 → Parsed (JsonValue × List UInt8)) (s : List UInt8) :
    Parsed (JsonValue × List UInt8) :=
  match skipWs s with
  | [] => loop []
  | b :: s => if b = rbrace then pure (.object [], s) else loop (b :: s)

def parseArray (loop : List UInt8 → Parsed (JsonValue × List UInt8)) (s : List UInt8) :
    Parsed (JsonValue × List UInt8) :=
  match skipWs s with
  | [] => loop []
  | b :: s => if b = rbracket then pure (.array [], s) else loop (b :: s)

mutual

def parseValue (strtod : Strtod) : ℕ → List UInt8 → Parsed (JsonValue × List UInt8)
  | 0, _ => stray
  | fuel + 1, s =>
      match skipWs s with
      | [] => refused
      | b :: s =>
          if b = lbrace then parseObject (parseMembers strtod fuel []) s
          else if b = lbracket then parseArray (parseItems strtod fuel []) s
          else if b = quote then parseString (b :: s) >>= fun out => pure (.string out.1, out.2)
          else if b = 0x74 ∨ b = 0x66 then parseBool (b :: s)
          else if b = 0x6e then parseNull (b :: s)
          else parseNumber strtod (b :: s)

def parseMembers (strtod : Strtod) :
    ℕ → List (List UInt8 × JsonValue) → List UInt8 → Parsed (JsonValue × List UInt8)
  | 0, _, _ => stray
  | fuel + 1, members, s => do
      let (key, s) ← parseString (skipWs s)
      match skipWs s with
      | [] => refused
      | b :: s =>
          if b ≠ colon then refused
          else
            let (val, s) ← parseValue strtod fuel s
            match skipWs s with
            | [] => refused
            | b :: s =>
                if b = comma then parseMembers strtod fuel (members ++ [(key, val)]) s
                else if b = rbrace then pure (.object (members ++ [(key, val)]), s)
                else refused

def parseItems (strtod : Strtod) :
    ℕ → List JsonValue → List UInt8 → Parsed (JsonValue × List UInt8)
  | 0, _, _ => stray
  | fuel + 1, items, s => do
      let (val, s) ← parseValue strtod fuel s
      match skipWs s with
      | [] => refused
      | b :: s =>
          if b = comma then parseItems strtod fuel (items ++ [val]) s
          else if b = rbracket then pure (.array (items ++ [val]), s)
          else refused

end

-- A byte is taken at every second call at least, so this is depth enough.
def parse (strtod : Strtod) (text : List UInt8) : Parsed (JsonValue × List UInt8) :=
  parseValue strtod (2 * text.length + 1) (skipWs text)

end AlpSdk.DrpAi
