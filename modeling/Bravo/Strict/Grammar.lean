import Bravo.Trace.Utf8

/-! # JSON texts

RFC 8259 over bytes, as a relation between a text and what it denotes. A string denotes the bytes of its
UTF-8 encoding, and a number the integer it spells or, with a fraction or an exponent, the binary64
that `read` gives for it. `Text d raw v n`: at depth `d` the bytes `raw` are a text of the value `v`,
which counts `n` values with those inside of it.
-/

namespace Bravo.Strict

abbrev Bytes := List UInt8

/-! ## Bytes -/

abbrev quote : UInt8 := 0x22
abbrev plus : UInt8 := 0x2b
abbrev comma : UInt8 := 0x2c
abbrev minus : UInt8 := 0x2d
abbrev point : UInt8 := 0x2e
abbrev colon : UInt8 := 0x3a
abbrev upperE : UInt8 := 0x45
abbrev openBracket : UInt8 := 0x5b
abbrev backslash : UInt8 := 0x5c
abbrev closeBracket : UInt8 := 0x5d
abbrev lowerE : UInt8 := 0x65
abbrev lowerU : UInt8 := 0x75
abbrev openBrace : UInt8 := 0x7b
abbrev closeBrace : UInt8 := 0x7d

/-- `null`, `true` and `false`. -/
abbrev nullWord : Bytes := [0x6e, 0x75, 0x6c, 0x6c]
abbrev trueWord : Bytes := [0x74, 0x72, 0x75, 0x65]
abbrev falseWord : Bytes := [0x66, 0x61, 0x6c, 0x73, 0x65]

def isBlank (b : UInt8) : Bool := b == 0x20 || b == 0x09 || b == 0x0d || b == 0x0a

def isDigit (b : UInt8) : Bool := decide (0x30 ≤ b ∧ b ≤ 0x39)

def hexDigit (b : UInt8) : Option Nat :=
  if 0x30 ≤ b ∧ b ≤ 0x39 then some (b.toNat - 0x30)
  else if 0x61 ≤ b ∧ b ≤ 0x66 then some (b.toNat - 0x61 + 10)
  else if 0x41 ≤ b ∧ b ≤ 0x46 then some (b.toNat - 0x41 + 10)
  else none

def Blank (w : Bytes) : Prop := ∀ b ∈ w, isBlank b = true

def Digits (ds : Bytes) : Prop := ∀ b ∈ ds, isDigit b = true

def simpleEscapes : List (UInt8 × UInt8) :=
  [(0x22, 0x22), (0x5c, 0x5c), (0x2f, 0x2f), (0x62, 0x08), (0x66, 0x0c), (0x6e, 0x0a), (0x72, 0x0d),
    (0x74, 0x09)]

/-! ## Strings -/

inductive Hex4 : Bytes → Nat → Prop
  | mk {a b c d : UInt8} {i j k l : Nat} (ha : hexDigit a = some i) (hb : hexDigit b = some j)
      (hc : hexDigit c = some k) (hd : hexDigit d = some l) :
      Hex4 [a, b, c, d] (((i * 16 + j) * 16 + k) * 16 + l)

/-- What stands between the quotes of a string, and the bytes it stands for. -/
inductive Chars : Bytes → Bytes → Prop
  | nil : Chars [] []
  | plain {b : UInt8} {raw s : Bytes} (hcontrol : 0x20 ≤ b) (hquote : b ≠ quote)
      (hbackslash : b ≠ backslash) (h : Chars raw s) : Chars (b :: raw) (b :: s)
  | escape {e b : UInt8} {raw s : Bytes} (he : (e, b) ∈ simpleEscapes) (h : Chars raw s) :
      Chars (backslash :: e :: raw) (b :: s)
  | unicode {hex raw s : Bytes} {c : Char} (hhex : Hex4 hex c.toNat) (h : Chars raw s) :
      Chars (backslash :: lowerU :: (hex ++ raw)) (String.utf8EncodeChar c ++ s)
  | pair {hex hex' raw s : Bytes} {high low : Nat} {c : Char} (hhex : Hex4 hex high)
      (hhex' : Hex4 hex' low) (hhigh : 0xd800 ≤ high ∧ high ≤ 0xdbff) (hlow : 0xdc00 ≤ low ∧ low ≤ 0xdfff)
      (hc : c.toNat = 0x10000 + (high - 0xd800) * 0x400 + (low - 0xdc00)) (h : Chars raw s) :
      Chars (backslash :: lowerU :: (hex ++ backslash :: lowerU :: (hex' ++ raw)))
        (String.utf8EncodeChar c ++ s)

inductive Str : Bytes → Bytes → Prop
  | mk {raw s : Bytes} (h : Chars raw s) (hutf8 : Trace.WellFormedUtf8 s) :
      Str (quote :: (raw ++ [quote])) s

/-! ## Values -/

inductive JsonValue (F : Type)
  | null
  | bool (b : Bool)
  | u64 (n : Nat)
  | i64 (n : Int)
  | double (x : F)
  | string (s : Bytes)
  | array (items : List (JsonValue F))
  | object (entries : List (Bytes × JsonValue F))

def insertEntry {α : Type} (k : Bytes) (v : α) : List (Bytes × α) → List (Bytes × α)
  | [] => [(k, v)]
  | e :: es => if k < e.1 then (k, v) :: e :: es else e :: insertEntry k v es

def mapOf {α : Type} (ms : List (Bytes × α)) : List (Bytes × α) :=
  ms.foldl (fun es m => insertEntry m.1 m.2 es) []

/-! ## Numbers -/

/-- The number that a row of digits spells, going on from `n`. -/
def decimalFrom (n : Nat) (ds : Bytes) : Nat := ds.foldl (fun n b => n * 10 + (b.toNat - 0x30)) n

def decimal (ds : Bytes) : Nat := decimalFrom 0 ds

inductive Integer : Bytes → Prop
  | zero : Integer [0x30]
  | digits {d : UInt8} {ds : Bytes} (hd : 0x31 ≤ d ∧ d ≤ 0x39) (hds : Digits ds) : Integer (d :: ds)

inductive Sign : Bytes → Prop
  | none : Sign []
  | minus : Sign [Strict.minus]

inductive Fraction : Bytes → Prop
  | none : Fraction []
  | some {ds : Bytes} (hds : Digits ds) (hne : ds ≠ []) : Fraction (point :: ds)

inductive ExponentSign : Bytes → Prop
  | none : ExponentSign []
  | some {b : UInt8} (hb : b = plus ∨ b = minus) : ExponentSign [b]

inductive Exponent : Bytes → Prop
  | none : Exponent []
  | some {e : UInt8} {sign ds : Bytes} (he : e = lowerE ∨ e = upperE) (hsign : ExponentSign sign)
      (hds : Digits ds) (hne : ds ≠ []) : Exponent (e :: (sign ++ ds))

inductive Number {F : Type} (read : Bytes → Option F) : Bytes → JsonValue F → Prop
  | unsigned {int : Bytes} (hint : Integer int) (hfits : decimal int < 2 ^ 64) :
      Number read int (.u64 (decimal int))
  | negative {int : Bytes} (hint : Integer int) (hfits : decimal int ≤ 2 ^ 63) :
      Number read (minus :: int) (.i64 (-(decimal int : Int)))
  | floating {sign int frac exp : Bytes} {x : F} (hsign : Sign sign) (hint : Integer int)
      (hfrac : Fraction frac) (hexp : Exponent exp) (hne : frac ≠ [] ∨ exp ≠ [])
      (hread : read (sign ++ (int ++ (frac ++ exp))) = some x) :
      Number read (sign ++ (int ++ (frac ++ exp))) (.double x)

/-! ## Texts -/

/-- An item of an array: the blanks around it, its text, its value and how many values it counts. -/
structure Element (F : Type) where
  before : Bytes := []
  raw : Bytes
  after : Bytes := []
  value : JsonValue F
  nodes : Nat

structure Member (F : Type) extends Element F where
  lead : Bytes := []
  keyRaw : Bytes
  keyAfter : Bytes := []
  key : Bytes

variable {F : Type}

def Element.text (e : Element F) : Bytes := e.before ++ (e.raw ++ e.after)

def Member.text (m : Member F) : Bytes := m.lead ++ (m.keyRaw ++ (m.keyAfter ++ colon :: m.toElement.text))

def Element.Blanks (e : Element F) : Prop := Blank e.before ∧ Blank e.after

def Member.Blanks (m : Member F) : Prop := Blank m.lead ∧ Blank m.keyAfter ∧ m.toElement.Blanks

def Member.entry (m : Member F) : Bytes × JsonValue F := (m.key, m.value)

def commaSeparated : List Bytes → Bytes
  | [] => []
  | [x] => x
  | x :: xs => x ++ comma :: commaSeparated xs

structure Bounds where
  depth : Nat
  nodes : Nat

inductive Text (read : Bytes → Option F) (limit : Nat) : Nat → Bytes → JsonValue F → Nat → Prop
  | null {d : Nat} (hd : d ≤ limit) : Text read limit d nullWord .null 1
  | true {d : Nat} (hd : d ≤ limit) : Text read limit d trueWord (.bool .true) 1
  | false {d : Nat} (hd : d ≤ limit) : Text read limit d falseWord (.bool .false) 1
  | number {d : Nat} {raw : Bytes} {v : JsonValue F} (hd : d ≤ limit) (h : Number read raw v) :
      Text read limit d raw v 1
  | string {d : Nat} {raw s : Bytes} (hd : d ≤ limit) (h : Str raw s) : Text read limit d raw (.string s) 1
  | emptyArray {d : Nat} {w : Bytes} (hd : d ≤ limit) (hw : Blank w) :
      Text read limit d (openBracket :: (w ++ [closeBracket])) (.array []) 1
  | array {d : Nat} {es : List (Element F)} (hd : d ≤ limit) (hne : es ≠ [])
      (hblanks : ∀ e ∈ es, e.Blanks) (hes : ∀ e ∈ es, Text read limit (d + 1) e.raw e.value e.nodes) :
      Text read limit d (openBracket :: (commaSeparated (es.map Element.text) ++ [closeBracket]))
        (.array (es.map (·.value))) ((es.map (·.nodes)).sum + 1)
  | emptyObject {d : Nat} {w : Bytes} (hd : d ≤ limit) (hw : Blank w) :
      Text read limit d (openBrace :: (w ++ [closeBrace])) (.object []) 1
  /-- The keys are compared as the strings they denote. -/
  | object {d : Nat} {ms : List (Member F)} (hd : d ≤ limit) (hne : ms ≠ [])
      (hblanks : ∀ m ∈ ms, m.Blanks) (hkeys : ∀ m ∈ ms, Str m.keyRaw m.key)
      (hdistinct : (ms.map (·.key)).Nodup)
      (hms : ∀ m ∈ ms, Text read limit (d + 1) m.raw m.value m.nodes) :
      Text read limit d (openBrace :: (commaSeparated (ms.map Member.text) ++ [closeBrace]))
        (.object (mapOf (ms.map Member.entry))) ((ms.map (·.nodes)).sum + 1)

/-- A document: one value with blanks around it, at depth 0 and of at most so many values. -/
def Document (read : Bytes → Option F) (bounds : Bounds) (input : Bytes) (v : JsonValue F) : Prop :=
  ∃ w raw w' n, input = w ++ (raw ++ w') ∧ Blank w ∧ Blank w' ∧ n ≤ bounds.nodes ∧
    Text read bounds.depth 0 raw v n

end Bravo.Strict
