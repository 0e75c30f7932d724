import TreeDump.Json.Reader

/-!
# The grammar of JSON texts

Which texts write which values, production by production, as RFC 8259 has them.  Numbers are those
of `Json`: a numeral with a fraction or an exponent writes none of them.  Surrogates are written in
pairs only, since half of a pair is no character.

* `Json.Document text v` says that a text, from its first to its last character, writes `v`.
-/

namespace TreeDump.Json

namespace Grammar

/-! ## Blanks -/

/-- A run of blanks, perhaps empty. -/
def Blank (cs : List Char) : Prop := ∀ c ∈ cs, c = ' ' ∨ c = '\t' ∨ c = '\n' ∨ c = '\r'

/-! ## Numbers -/

/-- A number without sign: a zero, or digits of which the first one is no zero. -/
inductive Natural : List Char → Nat → Prop where
  | zero : Natural ['0'] 0
  | nonzero {c : Char} {cs : List Char} (hFirst : c ≠ '0') (hDigits : ∀ d ∈ c :: cs, d.isDigit) :
      Natural (c :: cs) (Nat.ofDigitChars 10 (c :: cs) 0)

/-- A number, perhaps with a minus sign. -/
inductive Number : List Char → Int → Prop where
  | positive {cs : List Char} {n : Nat} (h : Natural cs n) : Number cs n
  | negative {cs : List Char} {n : Nat} (h : Natural cs n) : Number ('-' :: cs) (-n)

/-! ## Strings -/

/-- The letters that stand for a character after a backslash. -/
inductive ShortEscape : Char → Char → Prop where
  | quotation : ShortEscape '"' '"'
  | backslash : ShortEscape '\\' '\\'
  | slash : ShortEscape '/' '/'
  | backspace : ShortEscape 'b' '\x08'
  | formFeed : ShortEscape 'f' '\x0c'
  | lineFeed : ShortEscape 'n' '\n'
  | carriageReturn : ShortEscape 'r' '\r'
  | tab : ShortEscape 't' '\t'

/-- Four hexadecimal digits and the number that they write. -/
def Quad (a b c d : Char) (n : Nat) : Prop :=
  ∃ i j k l, Hex.value? a = some i ∧ Hex.value? b = some j ∧ Hex.value? c = some k ∧
    Hex.value? d = some l ∧ n = 16 * (16 * (16 * i + j) + k) + l

/-- What stands between quotation marks, and the characters that it writes. -/
inductive Chars : List Char → List Char → Prop where
  | nil : Chars [] []
  /-- A character that stands for itself. -/
  | plain {c : Char} {text cs : List Char} (hControl : 0x20 ≤ c.toNat) (hQuotation : c ≠ '"')
      (hBackslash : c ≠ '\\') (h : Chars text cs) : Chars (c :: text) (c :: cs)
  | short {letter c : Char} {text cs : List Char} (hLetter : ShortEscape letter c)
      (h : Chars text cs) : Chars ('\\' :: letter :: text) (c :: cs)
  /-- A character by its number. -/
  | code {a b c d : Char} {n : Nat} {text cs : List Char} (hQuad : Quad a b c d n)
      (hScalar : n < 0xd800 ∨ 0xe000 ≤ n) (h : Chars text cs) :
      Chars ('\\' :: 'u' :: a :: b :: c :: d :: text) (Char.ofNat n :: cs)
  /-- A character by two surrogates. -/
  | pair {a b c d e f g h : Char} {high low : Nat} {text cs : List Char}
      (hHigh : Quad a b c d high) (hHighRange : 0xd800 ≤ high ∧ high < 0xdc00)
      (hLow : Quad e f g h low) (hLowRange : 0xdc00 ≤ low ∧ low < 0xe000) (hRest : Chars text cs) :
      Chars ('\\' :: 'u' :: a :: b :: c :: d :: '\\' :: 'u' :: e :: f :: g :: h :: text)
        (Char.ofNat (joinSurrogates high low) :: cs)

/-- A string with its quotation marks. -/
inductive Quoted : List Char → String → Prop where
  | mk {text cs : List Char} (h : Chars text cs) : Quoted ('"' :: text ++ ['"']) (String.ofList cs)

/-! ## Values -/

mutual

/-- The texts of values. -/
inductive Value : List Char → Json → Prop where
  | null : Value ['n', 'u', 'l', 'l'] .null
  | true : Value ['t', 'r', 'u', 'e'] (.bool true)
  | false : Value ['f', 'a', 'l', 's', 'e'] (.bool false)
  | int {cs : List Char} {n : Int} (h : Number cs n) : Value cs (.int n)
  | str {cs : List Char} {s : String} (h : Quoted cs s) : Value cs (.str s)
  | emptyArr {blank : List Char} (hBlank : Blank blank) : Value ('[' :: blank ++ [']']) (.arr [])
  | arr {cs : List Char} {items : List Json} (h : Items cs items) :
      Value ('[' :: cs ++ [']']) (.arr items)
  | emptyObj {blank : List Char} (hBlank : Blank blank) :
      Value ('\x7b' :: blank ++ ['\x7d']) (.obj [])
  | obj {cs : List Char} {fields : List (String × Json)} (h : Fields cs fields) :
      Value ('\x7b' :: cs ++ ['\x7d']) (.obj fields)

/-- One element or more, with blanks around each, and with commas between them. -/
inductive Items : List Char → List Json → Prop where
  | one {before cs after : List Char} {v : Json} (hBefore : Blank before) (h : Value cs v)
      (hAfter : Blank after) : Items (before ++ cs ++ after) [v]
  | more {before cs after rest : List Char} {v : Json} {items : List Json} (hBefore : Blank before)
      (h : Value cs v) (hAfter : Blank after) (hRest : Items rest items) :
      Items (before ++ cs ++ after ++ ',' :: rest) (v :: items)

/-- One field or more, with blanks around keys and values, and with commas between them. -/
inductive Fields : List Char → List (String × Json) → Prop where
  | one {before name middle blank cs after : List Char} {key : String} {v : Json}
      (hBefore : Blank before) (hName : Quoted name key) (hMiddle : Blank middle)
      (hBlank : Blank blank) (h : Value cs v) (hAfter : Blank after) :
      Fields (before ++ name ++ middle ++ ':' :: (blank ++ cs ++ after)) [(key, v)]
  | more {before name middle blank cs after rest : List Char} {key : String} {v : Json}
      {fields : List (String × Json)} (hBefore : Blank before) (hName : Quoted name key)
      (hMiddle : Blank middle) (hBlank : Blank blank) (h : Value cs v) (hAfter : Blank after)
      (hRest : Fields rest fields) :
      Fields (before ++ name ++ middle ++ ':' :: (blank ++ cs ++ after ++ ',' :: rest))
        ((key, v) :: fields)

end

end Grammar

/-- A text that writes one value and holds nothing else but blanks. -/
def Document (text : String) (v : Json) : Prop :=
  ∃ before cs after, Grammar.Blank before ∧ Grammar.Value cs v ∧ Grammar.Blank after ∧
    text.toList = before ++ cs ++ after

end TreeDump.Json
