import Mathlib.Tactic

/-! # Files of lines

A file to which lines are appended is the concatenation of its lines. Splitting it gives the lines back,
and cutting it anywhere leaves a number of whole lines and a proper part of the next one.
-/

namespace Bravo

open List

def newline : UInt8 := 10

def carriageReturn : UInt8 := 13

def extendFirst (b : UInt8) : List (List UInt8) → List (List UInt8)
  | [] => [[b]]
  | line :: lines => (b :: line) :: lines

/-- `bytes.splitlines(keepends=True)`: a newline ends a line, and so does a carriage return that no
newline follows. -/
def splitLines : List UInt8 → List (List UInt8)
  | [] => []
  | b :: bs =>
    if b = newline ∨ b = carriageReturn ∧ bs.head? ≠ some newline then [b] :: splitLines bs
    else extendFirst b (splitLines bs)

def Unbroken (bytes : List UInt8) : Prop := ∀ b ∈ bytes, b ≠ newline ∧ b ≠ carriageReturn

def IsLine (line : List UInt8) : Prop := ∃ body, line = body ++ [newline] ∧ Unbroken body

theorem Unbroken.of_cons {b : UInt8} {bs : List UInt8} (h : Unbroken (b :: bs)) : Unbroken bs :=
  fun c hc => h c (mem_cons_of_mem b hc)

theorem splitLines_append_newline {body : List UInt8} (h : Unbroken body) (rest : List UInt8) :
    splitLines (body ++ newline :: rest) = (body ++ [newline]) :: splitLines rest := by
  induction body with
  | nil => rfl
  | cons b bs ih =>
    have hb := h b mem_cons_self
    rw [cons_append, splitLines, if_neg (by simp [hb]), ih h.of_cons]
    rfl

variable {lines : List (List UInt8)}

theorem splitLines_flatten (hlines : ∀ line ∈ lines, IsLine line) (rest : List UInt8) :
    splitLines (lines.flatten ++ rest) = lines ++ splitLines rest := by
  induction lines with
  | nil => rfl
  | cons line lines ih =>
    obtain ⟨body, rfl, hbody⟩ := hlines line mem_cons_self
    have hrest := ih fun l hl => hlines l (mem_cons_of_mem _ hl)
    rw [flatten_cons, append_assoc, append_assoc, singleton_append,
      splitLines_append_newline hbody, hrest]
    rfl

theorem take_flatten (lines : List (List UInt8)) : ∀ n, ∃ k tail,
    lines.flatten.take n = (lines.take k).flatten ++ tail ∧
      (tail = [] ∨ ∃ line rest, lines.drop k = line :: rest ∧ tail <+: line ∧ tail ≠ line) := by
  induction lines with
  | nil => exact fun n => ⟨0, [], by simp, Or.inl rfl⟩
  | cons line lines ih =>
    intro n
    by_cases hn : n < line.length
    · refine ⟨0, line.take n, ?_, Or.inr ⟨line, lines, rfl, take_prefix n line, fun h => ?_⟩⟩
      · simp [take_append_of_le_length (show n ≤ line.length by omega)]
      · have := congrArg List.length h
        rw [length_take] at this
        omega
    · obtain ⟨k, tail, htake, htail⟩ := ih (n - line.length)
      refine ⟨k + 1, tail, ?_, htail⟩
      have hcut : (line ++ lines.flatten).take n = line ++ lines.flatten.take (n - line.length) := by
        rw [take_append, take_of_length_le (by omega)]
      rw [flatten_cons, hcut, htake, take_succ_cons, flatten_cons, append_assoc]

theorem IsLine.unbroken_of_start {line tail : List UInt8} (h : IsLine line) (hstart : tail <+: line)
    (hne : tail ≠ line) : Unbroken tail := by
  obtain ⟨body, rfl, hbody⟩ := h
  obtain ⟨rest, hrest⟩ := hstart
  have hlength : tail.length ≤ body.length := by
    by_contra hlong
    have hlen := congrArg List.length hrest
    simp only [length_append, length_singleton] at hlen
    have hnil : rest = [] := length_eq_zero_iff.mp (by omega)
    exact hne (by simpa [hnil] using hrest)
  have htail : tail <+: body := by
    refine prefix_of_prefix_length_le ⟨rest, hrest⟩ (prefix_append body _) hlength
  exact fun b hb => hbody b (htail.subset hb)

theorem Unbroken.getLast?_ne {tail : List UInt8} (h : Unbroken tail) : tail.getLast? ≠ some newline :=
  fun hlast => (h newline (mem_of_getLast? hlast)).1 rfl

theorem IsLine.getLast? {line : List UInt8} (h : IsLine line) : line.getLast? = some newline := by
  obtain ⟨body, rfl, -⟩ := h
  simp

theorem IsLine.ne_nil {line : List UInt8} (h : IsLine line) : line ≠ [] := by
  obtain ⟨body, rfl, -⟩ := h
  simp

theorem IsLine.count_newline {line : List UInt8} (h : IsLine line) : line.count newline = 1 := by
  obtain ⟨body, rfl, hbody⟩ := h
  have hnone : body.count newline = 0 := count_eq_zero.mpr fun hmem => (hbody newline hmem).1 rfl
  simp [hnone]

theorem count_newline_flatten (hlines : ∀ line ∈ lines, IsLine line) :
    lines.flatten.count newline = lines.length := by
  induction lines with
  | nil => rfl
  | cons line lines ih =>
    have hline := (hlines line mem_cons_self).count_newline
    have hrest := ih fun l hl => hlines l (mem_cons_of_mem _ hl)
    rw [flatten_cons, count_append, hline, hrest, length_cons, Nat.add_comm]

theorem getLast?_flatten (hlines : ∀ line ∈ lines, IsLine line) (hne : lines ≠ []) :
    lines.flatten.getLast? = some newline := by
  obtain ⟨init, last, rfl⟩ := eq_nil_or_concat lines |>.resolve_left hne
  have hlast := hlines last (by simp)
  rw [concat_eq_append, flatten_append]
  simp [getLast?_append, hlast.getLast?]

end Bravo
