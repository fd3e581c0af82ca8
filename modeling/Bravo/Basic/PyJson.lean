import Bravo.Basic.PyText
import Mathlib.Data.List.Sort

/-! # JSON values as Python holds them

Strings may hold lone surrogates, a mapping keeps its items in the order of insertion, and two mappings are the
same when they have the same items. `dumps` is the text with the keys sorted, the narrow separators and without
`ensure_ascii`. Every character of it from 128 on stands in a string or a key of the value, and none is a control
character.
-/

namespace Bravo

open List

inductive PyJson (F : Type)
  | null
  | bool (b : Bool)
  | int (n : Int)
  | float (x : F)
  | str (s : PyStr)
  | arr (items : List (PyJson F))
  | obj (entries : List (PyStr × PyJson F))

namespace PyJson

variable {F : Type}

def isMapping : PyJson F → Bool
  | .obj _ => true
  | _ => false

/-! ## Values without floats -/

mutual

def ofJson : Json → PyJson F
  | .null => .null
  | .bool b => .bool b
  | .int n => .int n
  | .str s => .str (PyStr.lit s)
  | .arr items => .arr (ofItems items)
  | .obj entries => .obj (ofEntries entries)

def ofItems : List Json → List (PyJson F)
  | [] => []
  | v :: vs => ofJson v :: ofItems vs

def ofEntries : List (String × Json) → List (PyStr × PyJson F)
  | [] => []
  | (k, v) :: kvs => (PyStr.lit k, ofJson v) :: ofEntries kvs

end

mutual

/-- The value again: `toJson` undoes `ofJson`. -/
def toJson : PyJson Empty → Json
  | .null => .null
  | .bool b => .bool b
  | .int n => .int n
  | .str s => .str (PyStr.word s)
  | .arr items => .arr (toItems items)
  | .obj entries => .obj (toEntries entries)

def toItems : List (PyJson Empty) → List Json
  | [] => []
  | v :: vs => toJson v :: toItems vs

def toEntries : List (PyStr × PyJson Empty) → List (String × Json)
  | [] => []
  | (k, v) :: kvs => (PyStr.word k, toJson v) :: toEntries kvs

end

/-! ## Equality of mappings -/

def keyLe (a b : PyStr) : Prop := a.map CodePoint.value ≤ b.map CodePoint.value

instance (a b : PyStr) : Decidable (keyLe a b) := inferInstanceAs (Decidable (a.map _ ≤ b.map _))

def sortEntries (entries : List (PyStr × PyJson F)) : List (PyStr × PyJson F) :=
  entries.insertionSort fun a b => keyLe a.1 b.1

mutual

def sortKeys : PyJson F → PyJson F
  | .arr items => .arr (sortItems items)
  | .obj entries => .obj (sortEntries (sortValues entries))
  | v => v

def sortItems : List (PyJson F) → List (PyJson F)
  | [] => []
  | v :: vs => sortKeys v :: sortItems vs

def sortValues : List (PyStr × PyJson F) → List (PyStr × PyJson F)
  | [] => []
  | (k, v) :: kvs => (k, sortKeys v) :: sortValues kvs

end

/-- `==` of values -/
def Same (v w : PyJson F) : Prop := sortKeys v = sortKeys w

/-! ## Text -/

def escapePoint : CodePoint → PyStr
  | .char c => PyStr.ofChars (Json.escape c)
  | .surrogate n => [.surrogate n]

def quoted (s : PyStr) : PyStr :=
  PyStr.ofChars [Json.quote] ++ s.flatMap escapePoint ++ PyStr.ofChars [Json.quote]

section Text

variable (floatRepr : F → List Char)

mutual

def text : PyJson F → PyStr
  | .null => PyStr.ofChars ['n', 'u', 'l', 'l']
  | .bool b => PyStr.ofChars (Json.boolText b)
  | .int n => PyStr.ofChars (Json.intText n)
  | .float x => PyStr.ofChars (floatRepr x)
  | .str s => quoted s
  | .arr items => PyStr.ofChars ['['] ++ ((itemsText items).drop 1 ++ PyStr.ofChars [']'])
  | .obj entries => PyStr.ofChars ['{'] ++ ((entriesText entries).drop 1 ++ PyStr.ofChars ['}'])

def itemsText : List (PyJson F) → PyStr
  | [] => []
  | v :: vs => PyStr.ofChars [','] ++ (text v ++ itemsText vs)

def entriesText : List (PyStr × PyJson F) → PyStr
  | [] => []
  | (k, v) :: kvs => PyStr.ofChars [','] ++ (quoted k ++ (PyStr.ofChars [':'] ++ (text v ++ entriesText kvs)))

end

/-- `json.dumps` with `ensure_ascii=False`, `separators=(",", ":")` and `sort_keys=True` -/
def dumps (v : PyJson F) : PyStr := text floatRepr (sortKeys v)

end Text

/-! ## Leaves -/

inductive Leaf (F : Type)
  | chars (s : PyStr)
  | float (x : F)

mutual

/-- The strings, keys and floats of a value, from left to right. -/
def leaves : PyJson F → List (Leaf F)
  | .float x => [.float x]
  | .str s => [.chars s]
  | .arr items => itemsLeaves items
  | .obj entries => entriesLeaves entries
  | _ => []

def itemsLeaves : List (PyJson F) → List (Leaf F)
  | [] => []
  | v :: vs => leaves v ++ itemsLeaves vs

def entriesLeaves : List (PyStr × PyJson F) → List (Leaf F)
  | [] => []
  | (k, v) :: kvs => .chars k :: (leaves v ++ entriesLeaves kvs)

end

def Leaf.points : Leaf F → PyStr
  | .chars s => s
  | .float _ => []

def points (v : PyJson F) : PyStr := (leaves v).flatMap Leaf.points

theorem entriesLeaves_eq (entries : List (PyStr × PyJson F)) :
    entriesLeaves entries = entries.flatMap fun entry => .chars entry.1 :: leaves entry.2 := by
  induction entries with
  | nil => rfl
  | cons entry entries ih => rw [entriesLeaves, ih]; rfl

theorem sortEntries_perm (entries : List (PyStr × PyJson F)) : (sortEntries entries).Perm entries :=
  perm_insertionSort _ _

mutual

theorem leaves_sortKeys : ∀ v : PyJson F, (leaves (sortKeys v)).Perm (leaves v)
  | .null | .bool _ | .int _ | .float _ | .str _ => List.Perm.refl _
  | .arr items => itemsLeaves_sortItems items
  | .obj entries => by
    show (entriesLeaves (sortEntries (sortValues entries))).Perm (entriesLeaves entries)
    refine List.Perm.trans ?_ (entriesLeaves_sortValues entries)
    rw [entriesLeaves_eq, entriesLeaves_eq]
    exact (sortEntries_perm _).flatMap_right _

theorem itemsLeaves_sortItems : ∀ items : List (PyJson F), (itemsLeaves (sortItems items)).Perm (itemsLeaves items)
  | [] => List.Perm.refl _
  | v :: vs => (leaves_sortKeys v).append (itemsLeaves_sortItems vs)

theorem entriesLeaves_sortValues : ∀ entries : List (PyStr × PyJson F),
    (entriesLeaves (sortValues entries)).Perm (entriesLeaves entries)
  | [] => List.Perm.refl _
  | (_, v) :: kvs => ((leaves_sortKeys v).append (entriesLeaves_sortValues kvs)).cons _

end

theorem leaves_of_same {v w : PyJson F} (h : Same v w) : (leaves v).Perm (leaves w) :=
  (leaves_sortKeys v).symm.trans (h ▸ leaves_sortKeys w)

/-! ## The characters of a text -/

def high (p : CodePoint) : Bool := decide (128 ≤ p.value)

def Spelled (cs : List Char) : Prop := ∀ c ∈ cs, 32 ≤ c.toNat ∧ c.toNat < 128

theorem spelled_of_all {cs : List Char} (h : (cs.all fun c => decide (32 ≤ c.toNat ∧ c.toNat < 128)) = true) :
    Spelled cs := fun c hc => of_decide_eq_true (all_eq_true.mp h c hc)

theorem Spelled.filter_high {cs : List Char} (h : Spelled cs) : (PyStr.ofChars cs).filter high = [] := by
  rw [filter_eq_nil_iff]
  intro p hp
  obtain ⟨c, hc, rfl⟩ := mem_map.mp hp
  have hlow := (h c hc).2
  have hnot : ¬ 128 ≤ (CodePoint.char c).value := Nat.not_le.mpr hlow
  simpa [high] using hnot

theorem Spelled.printable {cs : List Char} (h : Spelled cs) : ∀ p ∈ PyStr.ofChars cs, 32 ≤ p.value := by
  intro p hp
  obtain ⟨c, hc, rfl⟩ := mem_map.mp hp
  exact (h c hc).1

theorem escape_of_le {c : Char} (h : 128 ≤ c.toNat) : Json.escape c = [c] := by
  have hshort : ∀ entry ∈ Json.shortEscapes, entry.1.toNat < 128 := by decide
  have hfind : Json.shortEscapes.find? (fun entry => entry.1 = c) = none := by
    rw [find?_eq_none]
    intro entry hentry heq
    have hlt := hshort entry hentry
    rw [of_decide_eq_true heq] at hlt
    omega
  rw [Json.escape, hfind]
  exact if_neg (by omega)

theorem spelled_escape {c : Char} (h : c.toNat < 128) : Spelled (Json.escape c) := by
  have hall : ∀ n < 128, ((Json.escape (Char.ofNat n)).all fun d => decide (32 ≤ d.toNat ∧ d.toNat < 128)) = true := by
    decide
  have hc := hall c.toNat h
  rw [Char.ofNat_toNat] at hc
  exact spelled_of_all hc

theorem filter_high_escapePoint (p : CodePoint) : (escapePoint p).filter high = [p].filter high := by
  cases p with
  | surrogate n => rfl
  | char c =>
    by_cases hc : 128 ≤ c.toNat
    · show (PyStr.ofChars (Json.escape c)).filter high = _
      rw [escape_of_le hc]
      rfl
    · have hlow : high (.char c) = false := decide_eq_false hc
      rw [filter_cons_of_neg (by simp [hlow]), filter_nil]
      exact (spelled_escape (by omega)).filter_high

theorem printable_escapePoint (p : CodePoint) : ∀ q ∈ escapePoint p, 32 ≤ q.value := by
  cases p with
  | surrogate n =>
    intro q hq
    obtain rfl := mem_singleton.mp hq
    show 32 ≤ 0xd800 + n.val
    omega
  | char c =>
    by_cases hc : 128 ≤ c.toNat
    · intro q hq
      rw [escapePoint, escape_of_le hc] at hq
      obtain rfl := mem_singleton.mp hq
      show 32 ≤ c.toNat
      omega
    · exact (spelled_escape (by omega)).printable

theorem filter_high_quoted (s : PyStr) : (quoted s).filter high = s.filter high := by
  have hquote : (PyStr.ofChars [Json.quote]).filter high = [] := rfl
  rw [quoted, filter_append, filter_append, hquote, append_nil, nil_append]
  induction s with
  | nil => rfl
  | cons p ps ih =>
    rw [flatMap_cons, filter_append, ih, filter_high_escapePoint, ← filter_append]
    rfl

theorem printable_quoted (s : PyStr) : ∀ p ∈ quoted s, 32 ≤ p.value := by
  have hquote : ∀ p ∈ PyStr.ofChars [Json.quote], 32 ≤ p.value := (spelled_of_all (by decide)).printable
  intro p hp
  rcases mem_append.mp hp with hp | hp
  · rcases mem_append.mp hp with hp | hp
    · exact hquote p hp
    · obtain ⟨q, -, hq⟩ := mem_flatMap.mp hp
      exact printable_escapePoint q p hq
  · exact hquote p hp

theorem spelled_toDigits (n : Nat) : Spelled (Nat.toDigits 10 n) := by
  intro c hc
  have hdigit := Nat.isDigit_of_mem_toDigits (by decide) (by decide) hc
  simp only [Char.isDigit, Bool.and_eq_true, decide_eq_true_eq] at hdigit
  have hlow : 48 ≤ c.toNat := hdigit.1
  have hhigh : c.toNat ≤ 57 := hdigit.2
  omega

theorem spelled_intText : ∀ n : Int, Spelled (Json.intText n)
  | .ofNat n => spelled_toDigits n
  | .negSucc n => by
    rintro c (_ | ⟨_, hc⟩)
    · decide
    · exact spelled_toDigits (n + 1) c hc

theorem spelled_boolText : ∀ b : Bool, Spelled (Json.boolText b)
  | true => spelled_of_all (by decide)
  | false => spelled_of_all (by decide)

section Characters

variable {floatRepr : F → List Char}

theorem filter_high_drop {s : PyStr} (h : ∀ p, s.head? = some p → high p = false) :
    (s.drop 1).filter high = s.filter high := by
  cases s with
  | nil => rfl
  | cons p ps => rw [filter_cons_of_neg (by simp [h p rfl])]; rfl

theorem head_itemsText (items : List (PyJson F)) : ∀ p, (itemsText floatRepr items).head? = some p → high p = false := by
  cases items with
  | nil => exact nofun
  | cons v vs =>
    intro p hp
    obtain rfl := Option.some.inj hp
    rfl

theorem head_entriesText (entries : List (PyStr × PyJson F)) :
    ∀ p, (entriesText floatRepr entries).head? = some p → high p = false := by
  cases entries with
  | nil => exact nofun
  | cons entry entries =>
    intro p hp
    obtain rfl := Option.some.inj hp
    rfl

mutual

theorem filter_high_text (hfloat : ∀ x, Spelled (floatRepr x)) : ∀ v : PyJson F, (text floatRepr v).filter high = (points v).filter high
  | .null => rfl
  | .bool b => (spelled_boolText b).filter_high
  | .int n => (spelled_intText n).filter_high
  | .float x => (hfloat x).filter_high
  | .str s => by
    rw [text, filter_high_quoted, points, leaves, flatMap_singleton]
    rfl
  | .arr items => by
    have hopen : (PyStr.ofChars ['[']).filter high = [] := rfl
    have hclose : (PyStr.ofChars [']']).filter high = [] := rfl
    rw [text, filter_append, filter_append, hopen, hclose, append_nil, nil_append,
      filter_high_drop (head_itemsText items), filter_high_itemsText hfloat items]
    rfl
  | .obj entries => by
    have hopen : (PyStr.ofChars ['{']).filter high = [] := rfl
    have hclose : (PyStr.ofChars ['}']).filter high = [] := rfl
    rw [text, filter_append, filter_append, hopen, hclose, append_nil, nil_append,
      filter_high_drop (head_entriesText entries), filter_high_entriesText hfloat entries]
    rfl

theorem filter_high_itemsText (hfloat : ∀ x, Spelled (floatRepr x)) : ∀ items : List (PyJson F),
    (itemsText floatRepr items).filter high = ((itemsLeaves items).flatMap Leaf.points).filter high
  | [] => rfl
  | v :: vs => by
    have hcomma : (PyStr.ofChars [',']).filter high = [] := rfl
    rw [itemsText, itemsLeaves, filter_append, filter_append, hcomma, nil_append,
      filter_high_text hfloat v, filter_high_itemsText hfloat vs, flatMap_append, filter_append]
    rfl

theorem filter_high_entriesText (hfloat : ∀ x, Spelled (floatRepr x)) : ∀ entries : List (PyStr × PyJson F),
    (entriesText floatRepr entries).filter high = ((entriesLeaves entries).flatMap Leaf.points).filter high
  | [] => rfl
  | (k, v) :: kvs => by
    have hcomma : (PyStr.ofChars [',']).filter high = [] := rfl
    have hcolon : (PyStr.ofChars [':']).filter high = [] := rfl
    rw [entriesText, entriesLeaves, filter_append, filter_append, filter_append, filter_append,
      hcomma, hcolon, nil_append, nil_append, filter_high_quoted, filter_high_text hfloat v,
      filter_high_entriesText hfloat kvs, flatMap_cons, flatMap_append, filter_append, filter_append]
    rfl

end

mutual

theorem printable_text (hfloat : ∀ x, Spelled (floatRepr x)) : ∀ v : PyJson F, ∀ p ∈ text floatRepr v, 32 ≤ p.value
  | .null => (spelled_of_all (by decide)).printable
  | .bool b => (spelled_boolText b).printable
  | .int n => (spelled_intText n).printable
  | .float x => (hfloat x).printable
  | .str s => printable_quoted s
  | .arr items => by
    intro p hp
    rw [text, mem_append, mem_append] at hp
    rcases hp with hp | hp | hp
    · exact (spelled_of_all (by decide)).printable p hp
    · exact printable_itemsText hfloat items p (mem_of_mem_drop hp)
    · exact (spelled_of_all (by decide)).printable p hp
  | .obj entries => by
    intro p hp
    rw [text, mem_append, mem_append] at hp
    rcases hp with hp | hp | hp
    · exact (spelled_of_all (by decide)).printable p hp
    · exact printable_entriesText hfloat entries p (mem_of_mem_drop hp)
    · exact (spelled_of_all (by decide)).printable p hp

theorem printable_itemsText (hfloat : ∀ x, Spelled (floatRepr x)) : ∀ items : List (PyJson F), ∀ p ∈ itemsText floatRepr items, 32 ≤ p.value
  | [] => nofun
  | v :: vs => by
    intro p hp
    rw [itemsText, mem_append, mem_append] at hp
    rcases hp with hp | hp | hp
    · exact (spelled_of_all (by decide)).printable p hp
    · exact printable_text hfloat v p hp
    · exact printable_itemsText hfloat vs p hp

theorem printable_entriesText (hfloat : ∀ x, Spelled (floatRepr x)) : ∀ entries : List (PyStr × PyJson F), ∀ p ∈ entriesText floatRepr entries, 32 ≤ p.value
  | [] => nofun
  | (k, v) :: kvs => by
    intro p hp
    rw [entriesText, mem_append, mem_append, mem_append, mem_append] at hp
    rcases hp with hp | hp | hp | hp | hp
    · exact (spelled_of_all (by decide)).printable p hp
    · exact printable_quoted k p hp
    · exact (spelled_of_all (by decide)).printable p hp
    · exact printable_text hfloat v p hp
    · exact printable_entriesText hfloat kvs p hp

end

theorem printable_dumps (hfloat : ∀ x, Spelled (floatRepr x)) (v : PyJson F) : ∀ p ∈ dumps floatRepr v, 32 ≤ p.value :=
  printable_text hfloat _

theorem mem_dumps (hfloat : ∀ x, Spelled (floatRepr x)) {v : PyJson F} {p : CodePoint} (hp : 128 ≤ p.value) : p ∈ dumps floatRepr v ↔ p ∈ points v := by
  have hhigh : high p = true := decide_eq_true hp
  have hmem : p ∈ dumps floatRepr v ↔ p ∈ points (sortKeys v) := by
    have h := congrArg (fun s => p ∈ s) (filter_high_text hfloat (sortKeys v))
    simpa [dumps, mem_filter, hhigh] using h
  rw [hmem]
  exact ((leaves_sortKeys v).flatMap_right Leaf.points).mem_iff

end Characters

end PyJson

end Bravo
