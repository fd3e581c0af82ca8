import Bravo.Basic.Exec
import Bravo.Strict.Grammar

/-! # The strict JSON parsers

`StrictJsonParser` of `CP2RecordedAssemble.cpp` and of `CP2OfflineReplay.cpp`: one recursive descent with
two sets of messages. The position is the rest of the input. A read that the source does not make
safe by a test raises `outOfBounds`, and a loop that has used up its rounds `diverges`.
-/

namespace Bravo.Strict

inductive Stop (ε : Type)
  | fail (e : ε)
  | outOfBounds
  | diverges

structure Scan where
  rest : Bytes
  nodes : Nat := 0

abbrev Parser (ε : Type) := EStateM (Stop ε) Scan

section Reading

variable {ε : Type}

def fail {α : Type} (e : ε) : Parser ε α := throw (.fail e)

/-- `input_[position_ + i]` -/
def byteAt (i : Nat) : Parser ε UInt8 := do
  let s ← get
  match s.rest[i]? with
  | some b => return b
  | none => throw .outOfBounds

/-- `position_ += n` -/
def advance (n : Nat) : Parser ε Unit := do
  let s ← get
  if s.rest.length < n then throw .outOfBounds
  else modify fun s => { s with rest := s.rest.drop n }

def skip : Parser ε Unit := modify fun s => { s with rest := s.rest.dropWhile isBlank }

def skipDigits : Parser ε Unit := modify fun s => { s with rest := s.rest.dropWhile isDigit }

def take (expected : UInt8) : Parser ε Bool := do
  let s ← get
  if s.rest.head? = some expected then do
    advance 1
    return true
  else return false

end Reading

/-! ## Strings -/

structure Messages (ε : Type) where
  trailing : ε
  nodes : ε
  hexTruncated : ε
  hexInvalid : ε
  openingQuote : ε
  notUtf8 : ε
  controlByte : ε
  escapeTruncated : ε
  surrogateIncomplete : ε
  lowSurrogateInvalid : ε
  unpairedLowSurrogate : ε
  escapeInvalid : ε
  unterminated : ε
  numberTruncated : ε
  leadingZero : ε
  noInteger : ε
  fractionEmpty : ε
  exponentEmpty : ε
  notFinite : ε
  exceedsU64 : ε
  belowI64 : ε
  nesting : ε
  valueMissing : ε
  arrayDelimiter : ε
  keyNotString : ε
  keyLacksColon : ε
  duplicateKey : ε
  objectDelimiter : ε
  tokenInvalid : ε

section Strings

variable {ε : Type} (m : Messages ε)

/-- The digits from `offset` on. -/
def hex4Loop : Nat → Nat → Nat → Parser ε Nat
  | _, 0, value => return value
  | offset, left + 1, value => do
    let c ← byteAt offset
    match hexDigit c with
    | none => fail m.hexInvalid
    | some digit => hex4Loop (offset + 1) left (value <<< 4 ||| digit)

def hex4 : Parser ε Nat := do
  let s ← get
  if s.rest.length < 4 then fail m.hexTruncated
  else do
    let value ← hex4Loop m 0 4 0
    advance 4
    return value

/-- `static_cast<char>(value)` -/
def toByte (value : Nat) : UInt8 := UInt8.ofNat value

def appendUtf8 (value : Nat) : Bytes :=
  if value ≤ 0x7f then [toByte value]
  else if value ≤ 0x7ff then [toByte (0xc0 ||| value >>> 6), toByte (0x80 ||| value &&& 0x3f)]
  else if value ≤ 0xffff then
    [toByte (0xe0 ||| value >>> 12), toByte (0x80 ||| value >>> 6 &&& 0x3f), toByte (0x80 ||| value &&& 0x3f)]
  else
    [toByte (0xf0 ||| value >>> 18), toByte (0x80 ||| value >>> 12 &&& 0x3f),
      toByte (0x80 ||| value >>> 6 &&& 0x3f), toByte (0x80 ||| value &&& 0x3f)]

def lowSurrogate (first : Nat) : Parser ε Nat := do
  let s ← get
  if s.rest.length < 2 then fail m.surrogateIncomplete
  else do
    let b ← byteAt 0
    let b' ← byteAt 1
    if b ≠ backslash ∨ b' ≠ lowerU then fail m.surrogateIncomplete
    else do
      advance 2
      let second ← hex4 m
      if second < 0xdc00 ∨ 0xdfff < second then fail m.lowSurrogateInvalid
      else return 0x10000 + (first - 0xd800) <<< 10 + (second - 0xdc00)

/-- The escape after `\u`. -/
def unicodeEscape : Parser ε Bytes := do
  let first ← hex4 m
  if 0xd800 ≤ first ∧ first ≤ 0xdbff then do
    let codepoint ← lowSurrogate m first
    return appendUtf8 codepoint
  else if 0xdc00 ≤ first ∧ first ≤ 0xdfff then fail m.unpairedLowSurrogate
  else return appendUtf8 first

def escape : Parser ε Bytes := do
  let s ← get
  if s.rest = [] then fail m.escapeTruncated
  else do
    let e ← byteAt 0
    advance 1
    match simpleEscapes.lookup e with
    | some b => return [b]
    | none => if e = lowerU then unicodeEscape m else fail m.escapeInvalid

/-- The loop of `String`. The copies of `valid_utf8` are one loop. -/
def stringLoop : Nat → Bytes → Parser ε Bytes
  | 0, _ => throw .diverges
  | fuel + 1, output => do
    let s ← get
    if s.rest = [] then fail m.unterminated
    else do
      let byte ← byteAt 0
      advance 1
      if byte = quote then
        if Trace.utf8Loop Trace.continuationChecks output then return output else fail m.notUtf8
      else if byte < 0x20 then fail m.controlByte
      else if byte ≠ backslash then stringLoop fuel (output ++ [byte])
      else do
        let bytes ← escape m
        stringLoop fuel (output ++ bytes)

def string : Parser ε Bytes := do
  if ← take quote then do
    let s ← get
    stringLoop m (s.rest.length + 1) []
  else fail m.openingQuote

end Strings

/-! ## Numbers -/

/-- The loop that adds up digits in a `u64`; `none` where the sum leaves its range. -/
def magnitude : Nat → Bytes → Option Nat
  | value, [] => some value
  | value, b :: rest =>
    let digit := b.toNat - 0x30
    if (2 ^ 64 - 1 - digit) / 10 < value then none else magnitude (value * 10 + digit) rest

section Numbers

variable {ε F : Type} (m : Messages ε)

def integerPart : Parser ε Unit := do
  let s ← get
  if s.rest = [] then fail m.numberTruncated
  else do
    let b ← byteAt 0
    if b = 0x30 then do
      advance 1
      let s ← get
      if s.rest.head?.any isDigit then fail m.leadingZero else return ⟨⟩
    else if 0x31 ≤ b ∧ b ≤ 0x39 then skipDigits
    else fail m.noInteger

def someDigits (empty : ε) : Parser ε Unit := do
  let start ← get
  skipDigits
  let s ← get
  if start.rest.length = s.rest.length then fail empty else return ⟨⟩

def fraction : Parser ε Bool := do
  if ← take point then do
    someDigits m.fractionEmpty
    return true
  else return false

def exponent : Parser ε Bool := do
  let s ← get
  if s.rest.head? = some lowerE ∨ s.rest.head? = some upperE then do
    advance 1
    let s ← get
    if s.rest.head? = some plus ∨ s.rest.head? = some minus then do
      advance 1
      someDigits m.exponentEmpty
      return true
    else do
      someDigits m.exponentEmpty
      return true
  else return false

def integerValue (negative : Bool) (digits : Bytes) : Parser ε (JsonValue F) :=
  match magnitude 0 digits with
  | none => fail m.exceedsU64
  | some n =>
    if negative = false then return .u64 n
    else if 2 ^ 63 < n then fail m.belowI64
    else return .i64 (-(n : Int))

/-- `read` is the stream's reading of a binary64: nothing where it fails, leaves bytes over or is not
finite. -/
def number (read : Bytes → Option F) : Parser ε (JsonValue F) := do
  let start ← get
  let negative ← take minus
  let digits ← get
  integerPart m
  let hasFraction ← fraction m
  let hasExponent ← exponent m
  let s ← get
  if hasFraction || hasExponent then
    match read (start.rest.take (start.rest.length - s.rest.length)) with
    | none => fail m.notFinite
    | some x => return .double x
  else integerValue m negative (digits.rest.take (digits.rest.length - s.rest.length))

end Numbers

/-! ## Values -/

instance lawfulBEq_bytes : LawfulBEq (List UInt8) := inferInstance

/-- `object.emplace(key, value)`; nothing where the key is there already. -/
def emplace {α : Type} (k : Bytes) (v : α) (es : List (Bytes × α)) : Option (List (Bytes × α)) :=
  if k ∈ es.map (·.1) then none else some (insertEntry k v es)

section Values

variable {ε F : Type} (m : Messages ε) (read : Bytes → Option F) (bounds : Bounds)

def node : Parser ε Unit := do
  let s ← get
  if s.nodes = bounds.nodes then fail m.nodes
  else modify fun s => { s with nodes := s.nodes + 1 }

mutual

def value : Nat → Nat → Parser ε (JsonValue F)
  | 0, _ => throw .diverges
  | fuel + 1, depth =>
    if bounds.depth < depth then fail m.nesting
    else do
      node m bounds
      let s ← get
      if s.rest = [] then fail m.valueMissing
      else do
        let b ← byteAt 0
        if b = quote then do
          let output ← string m
          return .string output
        else if s.rest.take 4 = nullWord then do
          advance 4
          return .null
        else if s.rest.take 4 = trueWord then do
          advance 4
          return .bool true
        else if s.rest.take 5 = falseWord then do
          advance 5
          return .bool false
        else if b = minus ∨ isDigit b = true then number m read
        else if ← take openBracket then do
          skip
          if ← take closeBracket then return .array []
          else elements fuel (depth + 1) []
        else if ← take openBrace then do
          skip
          if ← take closeBrace then return .object []
          else members fuel (depth + 1) []
        else fail m.tokenInvalid

def elements : Nat → Nat → List (JsonValue F) → Parser ε (JsonValue F)
  | 0, _, _ => throw .diverges
  | fuel + 1, depth, items => do
    let v ← value fuel depth
    skip
    if ← take closeBracket then return .array (items ++ [v])
    else if ← take comma then do
      skip
      elements fuel depth (items ++ [v])
    else fail m.arrayDelimiter

def members : Nat → Nat → List (Bytes × JsonValue F) → Parser ε (JsonValue F)
  | 0, _, _ => throw .diverges
  | fuel + 1, depth, entries => do
    let s ← get
    if s.rest = [] then fail m.keyNotString
    else do
      let b ← byteAt 0
      if b ≠ quote then fail m.keyNotString
      else do
        let key ← string m
        skip
        if ← take colon then do
          skip
          let v ← value fuel depth
          match emplace key v entries with
          | none => fail m.duplicateKey
          | some entries => do
            skip
            if ← take closeBrace then return .object entries
            else if ← take comma then do
              skip
              members fuel depth entries
            else fail m.objectDelimiter
        else fail m.keyLacksColon

end

/-- `Parse` with so many rounds. -/
def parse (fuel : Nat) : Parser ε (JsonValue F) := do
  skip
  let v ← value m read bounds fuel 0
  skip
  let s ← get
  if s.rest = [] then return v else fail m.trailing

end Values

/-! ## The two copies -/

def recordedMessages : Messages String where
  trailing := "JSON has trailing bytes"
  nodes := "JSON node population exceeds bound"
  hexTruncated := "JSON unicode escape is truncated"
  hexInvalid := "JSON unicode escape is invalid"
  openingQuote := "JSON string opening quote is missing"
  notUtf8 := "JSON string is not UTF-8"
  controlByte := "JSON string has a control byte"
  escapeTruncated := "JSON escape is truncated"
  surrogateIncomplete := "JSON surrogate is incomplete"
  lowSurrogateInvalid := "JSON low surrogate is invalid"
  unpairedLowSurrogate := "JSON contains unpaired low surrogate"
  escapeInvalid := "JSON escape is invalid"
  unterminated := "JSON string is unterminated"
  numberTruncated := "JSON number is truncated"
  leadingZero := "JSON number has a leading zero"
  noInteger := "JSON number has no integer part"
  fractionEmpty := "JSON fraction is empty"
  exponentEmpty := "JSON exponent is empty"
  notFinite := "JSON float is not finite binary64"
  exceedsU64 := "JSON integer exceeds u64"
  belowI64 := "JSON integer is below i64"
  nesting := "JSON nesting exceeds bound"
  valueMissing := "JSON value is missing"
  arrayDelimiter := "JSON array delimiter is invalid"
  keyNotString := "JSON object key is not a string"
  keyLacksColon := "JSON object key lacks colon"
  duplicateKey := "JSON object contains duplicate key"
  objectDelimiter := "JSON object delimiter is invalid"
  tokenInvalid := "JSON token is invalid"

def replayMessages : Messages String where
  trailing := "JSON has trailing bytes"
  nodes := "JSON node population exceeds the replay bound"
  hexTruncated := "JSON has a truncated unicode escape"
  hexInvalid := "JSON unicode escape is not hexadecimal"
  openingQuote := "JSON string opening quote is missing"
  notUtf8 := "JSON string is not valid UTF-8"
  controlByte := "JSON string contains an unescaped control byte"
  escapeTruncated := "JSON string has a truncated escape"
  surrogateIncomplete := "JSON high surrogate lacks a low surrogate"
  lowSurrogateInvalid := "JSON low surrogate is invalid"
  unpairedLowSurrogate := "JSON contains an unpaired low surrogate"
  escapeInvalid := "JSON string escape is invalid"
  unterminated := "JSON string is unterminated"
  numberTruncated := "JSON number is truncated"
  leadingZero := "JSON number has a leading zero"
  noInteger := "JSON number has no integer part"
  fractionEmpty := "JSON number has an empty fraction"
  exponentEmpty := "JSON number has an empty exponent"
  notFinite := "JSON floating value is not finite binary64"
  exceedsU64 := "JSON integer exceeds u64"
  belowI64 := "JSON negative integer is below i64"
  nesting := "JSON nesting exceeds the replay bound"
  valueMissing := "JSON value is missing"
  arrayDelimiter := "JSON array delimiter is invalid"
  keyNotString := "JSON object key is not a string"
  keyLacksColon := "JSON object key lacks a colon"
  duplicateKey := "JSON object contains a duplicate key"
  objectDelimiter := "JSON object delimiter is invalid"
  tokenInvalid := "JSON value token is invalid"

/-- `kMaximumJsonDepth` and `kMaximumJsonNodes`, of one value in both files. -/
def jsonBounds : Bounds where
  depth := 64
  nodes := 50000000

/-- Rounds enough for an input: no more than two for each byte. -/
def rounds (input : Bytes) : Nat := 2 * input.length + 1

def outcome {ε α : Type} (x : Parser ε α) (input : Bytes) : Except (Stop ε) α :=
  match x.run { rest := input } with
  | .ok v _ => .ok v
  | .error e _ => .error e

def CP2RecordedAssemble.parseJson {F : Type} (read : Bytes → Option F) (input : Bytes) :
    Except (Stop String) (JsonValue F) :=
  outcome (parse recordedMessages read jsonBounds (rounds input)) input

def CP2OfflineReplay.parseJson {F : Type} (read : Bytes → Option F) (input : Bytes) :
    Except (Stop String) (JsonValue F) :=
  outcome (parse replayMessages read jsonBounds (rounds input)) input

end Bravo.Strict
