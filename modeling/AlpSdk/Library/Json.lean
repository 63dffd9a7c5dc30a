import Mathlib.Algebra.Group.Nat.Defs
import Mathlib.Data.Int.Basic
import Mathlib.Data.List.Forall2
import Mathlib.Data.Nat.Notation

namespace Library.Json

-- A JSON value. Strings and keys are their UTF-8 bytes, numbers the integers they spell.
inductive Value where
  | null
  | bool (b : Bool)
  | number (n : ℤ)
  | string (s : List UInt8)
  | array (items : List Value)
  | object (members : List (List UInt8 × Value))

-- The first member of that name; none on any other value.
def Value.find (v : Value) (key : List UInt8) : Option Value :=
  match v with
  | .object members => (members.find? fun m => m.1 = key).map Prod.snd
  | _ => none

def quote : UInt8 := 0x22
def comma : UInt8 := 0x2c
def minus : UInt8 := 0x2d
def colon : UInt8 := 0x3a
def lbracket : UInt8 := 0x5b
def backslash : UInt8 := 0x5c
def rbracket : UInt8 := 0x5d
def lbrace : UInt8 := 0x7b
def rbrace : UInt8 := 0x7d

def isWs (b : UInt8) : Bool := b = 0x20 || b = 0x09 || b = 0x0a || b = 0x0d

def isDigit (b : UInt8) : Bool := 0x30 ≤ b && b ≤ 0x39

def isHex (b : UInt8) : Bool :=
  isDigit b || (0x41 ≤ b && b ≤ 0x46) || (0x61 ≤ b && b ≤ 0x66)

-- The escapes of one letter.
inductive Escape where
  | quote
  | backslash
  | slash
  | b
  | f
  | n
  | r
  | t
  deriving DecidableEq

def Escape.letter : Escape → UInt8
  | .quote => 0x22
  | .backslash => 0x5c
  | .slash => 0x2f
  | .b => 0x62
  | .f => 0x66
  | .n => 0x6e
  | .r => 0x72
  | .t => 0x74

def Escape.meaning : Escape → UInt8
  | .quote => 0x22
  | .backslash => 0x5c
  | .slash => 0x2f
  | .b => 0x08
  | .f => 0x0c
  | .n => 0x0a
  | .r => 0x0d
  | .t => 0x09

def hexValue (b : UInt8) : ℕ :=
  if isDigit b then b.toNat - 0x30 else (b.toNat ||| 0x20) - 0x57

-- The bytes of one UTF-16 unit; the halves of a surrogate pair stay apart.
def unitBytes (u : ℕ) : List UInt8 :=
  if u < 0x80 then [u.toUInt8]
  else if u < 0x800 then [(0xc0 + u / 0x40).toUInt8, (0x80 + u % 0x40).toUInt8]
  else [(0xe0 + u / 0x1000).toUInt8, (0x80 + u / 0x40 % 0x40).toUInt8, (0x80 + u % 0x40).toUInt8]

-- The text between the quotes of a string, and its meaning. `escapes` are the letters that may
-- follow a backslash, `units` says whether a \u may.
inductive Chars (escapes : Escape → Prop) (units : Prop) : List UInt8 → List UInt8 → Prop where
  | nil : Chars escapes units [] []
  | plain {b : UInt8} {t s : List UInt8} (hquote : b ≠ quote) (hback : b ≠ backslash)
      (hcontrol : 0x20 ≤ b) (rest : Chars escapes units t s) : Chars escapes units (b :: t) (b :: s)
  | escape {e : Escape} {t s : List UInt8} (h : escapes e) (rest : Chars escapes units t s) :
      Chars escapes units (backslash :: e.letter :: t) (e.meaning :: s)
  | unicode {h₁ h₂ h₃ h₄ : UInt8} {t s : List UInt8} (h : units) (hex₁ : isHex h₁) (hex₂ : isHex h₂)
      (hex₃ : isHex h₃) (hex₄ : isHex h₄) (rest : Chars escapes units t s) :
      Chars escapes units (backslash :: 0x75 :: h₁ :: h₂ :: h₃ :: h₄ :: t)
        (unitBytes (((hexValue h₁ * 16 + hexValue h₂) * 16 + hexValue h₃) * 16 + hexValue h₄) ++ s)

theorem Chars.plainText {escapes : Escape → Prop} {units : Prop} {s : List UInt8}
    (h : ∀ b ∈ s, b ≠ quote ∧ b ≠ backslash ∧ 0x20 ≤ b) : Chars escapes units s s := by
  induction s with
  | nil => exact .nil
  | cons b s ih =>
      obtain ⟨hquote, hback, hcontrol⟩ := h b (by simp)
      exact .plain hquote hback hcontrol (ih fun b hb => h b (by simp [hb]))

theorem Chars.mono {escapes escapes' : Escape → Prop} {units units' : Prop} {t s : List UInt8}
    (h : Chars escapes units t s) (hescapes : ∀ e, escapes e → escapes' e) (hunits : units → units') :
    Chars escapes' units' t s := by
  induction h with
  | nil => exact .nil
  | plain hquote hback hcontrol _ ih => exact .plain hquote hback hcontrol ih
  | escape he _ ih => exact .escape (hescapes _ he) ih
  | unicode hu hex₁ hex₂ hex₃ hex₄ _ ih => exact .unicode (hunits hu) hex₁ hex₂ hex₃ hex₄ ih

-- Any string, and a name: one without \u, by the escapes a name may use.
abbrev StringText : List UInt8 → List UInt8 → Prop := Chars (fun _ => True) True

abbrev NameText (escapes : Escape → Prop) : List UInt8 → List UInt8 → Prop := Chars escapes False

def quoted (t : List UInt8) : List UInt8 := quote :: (t ++ [quote])

def Blank (w : List UInt8) : Prop := ∀ b ∈ w, isWs b = true

theorem blank_nil : Blank [] := by simp [Blank]

def decimal (digits : List UInt8) : ℕ := digits.foldl (fun n d => 10 * n + (d.toNat - 0x30)) 0

def sign (neg : Bool) : List UInt8 := if neg then [minus] else []

def signed (neg : Bool) (n : ℕ) : ℤ := if neg then -n else n

def boolText (b : Bool) : List UInt8 :=
  if b then [0x74, 0x72, 0x75, 0x65] else [0x66, 0x61, 0x6c, 0x73, 0x65]

def nullText : List UInt8 := [0x6e, 0x75, 0x6c, 0x6c]

-- The texts of a value: any blanks, any order of members, any nesting. Its numbers are integers
-- below 2^53 in size, its keys are names, and so are the strings that `named` keys carry.
mutual

inductive ValueText (escapes : Escape → Prop) (named : List UInt8 → Prop) :
    List UInt8 → Value → Prop where
  | null : ValueText escapes named nullText .null
  | bool (b : Bool) : ValueText escapes named (boolText b) (.bool b)
  | number (neg : Bool) {digits : List UInt8} (hne : digits ≠ [])
      (hdigits : ∀ d ∈ digits, isDigit d = true) (hsmall : decimal digits < 2 ^ 53) :
      ValueText escapes named (sign neg ++ digits) (.number (signed neg (decimal digits)))
  | string {t s : List UInt8} (h : StringText t s) : ValueText escapes named (quoted t) (.string s)
  | emptyArray {w : List UInt8} (hw : Blank w) :
      ValueText escapes named (lbracket :: (w ++ [rbracket])) (.array [])
  | array {t : List UInt8} {items : List Value} (h : ItemsText escapes named t items) :
      ValueText escapes named (lbracket :: (t ++ [rbracket])) (.array items)
  | emptyObject {w : List UInt8} (hw : Blank w) :
      ValueText escapes named (lbrace :: (w ++ [rbrace])) (.object [])
  | object {t : List UInt8} {members : List (List UInt8 × Value)}
      (h : MembersText escapes named t members) :
      ValueText escapes named (lbrace :: (t ++ [rbrace])) (.object members)

inductive ItemsText (escapes : Escape → Prop) (named : List UInt8 → Prop) :
    List UInt8 → List Value → Prop where
  | last {w t w' : List UInt8} {v : Value} (hw : Blank w) (h : ValueText escapes named t v)
      (hw' : Blank w') : ItemsText escapes named (w ++ (t ++ w')) [v]
  | next {w t w' t' : List UInt8} {v : Value} {items : List Value} (hw : Blank w)
      (h : ValueText escapes named t v) (hw' : Blank w') (rest : ItemsText escapes named t' items) :
      ItemsText escapes named (w ++ (t ++ (w' ++ comma :: t'))) (v :: items)

inductive MembersText (escapes : Escape → Prop) (named : List UInt8 → Prop) :
    List UInt8 → List (List UInt8 × Value) → Prop where
  | last {t w' : List UInt8} {m : List UInt8 × Value} (h : MemberText escapes named t m)
      (hw' : Blank w') : MembersText escapes named (t ++ w') [m]
  | next {t w' t' : List UInt8} {m : List UInt8 × Value} {members : List (List UInt8 × Value)}
      (h : MemberText escapes named t m) (hw' : Blank w')
      (rest : MembersText escapes named t' members) :
      MembersText escapes named (t ++ (w' ++ comma :: t')) (m :: members)

inductive MemberText (escapes : Escape → Prop) (named : List UInt8 → Prop) :
    List UInt8 → List UInt8 × Value → Prop where
  | member {w k w' w'' t key : List UInt8} {v : Value} (hw : Blank w)
      (hkey : NameText escapes k key) (hw' : Blank w') (hw'' : Blank w'')
      (h : ValueText escapes named t v)
      (hnamed : named key → ∀ s, v = .string s → ∃ n, t = quoted n ∧ NameText escapes n s) :
      MemberText escapes named (w ++ (quoted k ++ (w' ++ colon :: (w'' ++ t)))) (key, v)

end

end Library.Json
