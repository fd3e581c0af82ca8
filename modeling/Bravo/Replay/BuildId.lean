import Bravo.Basic.Reader
import Mathlib.Data.Nat.Digits.Defs

/-! # The build ID of an executable

`executable_build_id` of the offline replay. Offsets and lengths are `std::uint64_t`: an access outside the
image, an unchecked sum that would wrap and a loop that does not end are failures of their own here. The notes
that the code finds are those that tile the `PT_NOTE` segments (`executableBuildId_spec`), and none of the three
happens.
-/

namespace Bravo.Replay

open List

/-! ## The code -/

inductive Failure
  /-- `ReplayError` with `kInvalidArtifact` -/
  | invalidArtifact (message : String)
  /-- `ReplayError` with `kReplayFailed` -/
  | replayFailed (message : String)
  | outOfRange
  /-- A result of `2^64` or more. -/
  | wrapped
  | unfinished
deriving DecidableEq

/-- A `std::vector` of bytes. -/
structure FileBytes where
  bytes : List UInt8
  length_lt : bytes.length < 2 ^ 64

structure Image extends FileBytes where
  elf64 : Bool
  littleEndian : Bool

def word (n : Nat) : Except Failure Nat := if n < 2 ^ 64 then .ok n else .error .wrapped

def invalid {α : Type} (message : String) : Except Failure α := .error (.invalidArtifact message)

variable (image : Image)

/-- `bytes[index]` -/
def byteAt (index : Nat) : Except Failure UInt8 :=
  match image.bytes[index]? with
  | some byte => .ok byte
  | none => .error .outOfRange

def readBytes (start count : Nat) : Except Failure (List UInt8) :=
  (range count).mapM fun index => do byteAt image (← word (start + index))

/-- The word that `elf_integer` puts together from the bytes read. -/
def shiftIn (littleEndian : Bool) (window : List UInt8) : Nat :=
  if littleEndian then window.zipIdx.foldl (fun result p => result ||| p.1.toNat <<< (8 * p.2) % 2 ^ 64) 0
  else window.foldl (fun result byte => result <<< 8 % 2 ^ 64 ||| byte.toNat) 0

def elfInteger (offset width : Nat) : Except Failure Nat :=
  if (width ≠ 2 ∧ width ≠ 4 ∧ width ≠ 8) ∨ image.bytes.length < offset ∨
      image.bytes.length - offset < width then
    invalid "executable ELF metadata is truncated"
  else return shiftIn image.littleEndian (← readBytes image offset width)

def align4 (value : Nat) : Except Failure Nat :=
  if 2 ^ 64 - 1 - 3 < value then invalid "executable ELF note length overflows"
  else return (← word (value + 3)) &&& (2 ^ 64 - 1 - 3)

/-- `kHex` -/
def hexOf (bytes : List UInt8) : List Char :=
  bytes.flatMap fun byte => [Nat.digitChar (byte.toNat >>> 4), Nat.digitChar (byte.toNat &&& 0x0f)]

/-- `found` and `found_count` -/
structure Found where
  id : List Char := []
  count : Nat := 0

def gnu : List UInt8 := [0x47, 0x4e, 0x55, 0]

/-- A candidate beside what has been found, with `increment`. -/
def Found.add (found : Found) (candidate : List Char) : Except Failure Found :=
  if found.id ≠ [] ∧ found.id ≠ candidate then invalid "executable contains conflicting GNU build IDs"
  else if found.count + 1 = 2 ^ 64 then .error (.replayFailed "GNU build ID note count overflows u64")
  else .ok ⟨candidate, found.count + 1⟩

def gnuName (nameSize position : Nat) : Except Failure Bool :=
  if nameSize = 4 then return (← readBytes image position 4) == gnu else .ok false

def takeNote (found : Found) (type nameSize descriptionSize position description : Nat) : Except Failure Found := do
  let gnuName ← gnuName image nameSize position
  if type = 3 ∧ gnuName = true ∧ 0 < descriptionSize then
    let _ ← word (descriptionSize * 2)
    found.add (hexOf (← readBytes image description descriptionSize))
  else return found

def noteLoop (stop : Nat) : Nat → Nat → Found → Except Failure Found
  | 0, _, _ => .error .unfinished
  | fuel + 1, position, found =>
    if stop ≤ position then .ok found
    else if stop - position < 12 then invalid "executable ELF note header is truncated"
    else do
      let nameSize ← elfInteger image position 4
      let descriptionSize ← elfInteger image (← word (position + 4)) 4
      let type ← elfInteger image (← word (position + 8)) 4
      let position ← word (position + 12)
      let paddedName ← align4 nameSize
      let paddedDescription ← align4 descriptionSize
      let description := position + paddedName
      let next := description + paddedDescription
      if stop - position < paddedName ∨ 2 ^ 64 ≤ description ∨ stop - description < paddedDescription ∨
          2 ^ 64 ≤ next then invalid "executable ELF note payload is truncated"
      else do
        let found ← takeNote image found type nameSize descriptionSize position description
        noteLoop stop fuel next found

def Image.width : Nat := if image.elf64 then 8 else 4

def Image.minimumEntry : Nat := if image.elf64 then 56 else 32

/-- Where the header has the offset of the table, the size of an entry and the number of entries. -/
def Image.phoffField : Nat := if image.elf64 then 32 else 28

def Image.phentsizeField : Nat := if image.elf64 then 54 else 42

def Image.phnumField : Nat := if image.elf64 then 56 else 44

def Image.offsetField : Nat := if image.elf64 then 8 else 4

def Image.sizeField : Nat := if image.elf64 then 32 else 16

/-- The body of the loop over the program headers. -/
def programHeader (phoff phentsize : Nat) (found : Found) (index : Nat) : Except Failure Found :=
  let scaled := index * phentsize
  let header := phoff + scaled
  if 2 ^ 64 ≤ scaled ∨ 2 ^ 64 ≤ header ∨ image.bytes.length < header ∨
      image.bytes.length - header < image.minimumEntry then
    invalid "executable ELF program-header table is truncated"
  else do
    if (← elfInteger image header 4) ≠ 4 then return found
    let noteOffset ← elfInteger image (← word (header + image.offsetField)) image.width
    let noteSize ← elfInteger image (← word (header + image.sizeField)) image.width
    if image.bytes.length < noteOffset ∨ image.bytes.length - noteOffset < noteSize then
      invalid "executable ELF note segment is outside the file"
    else noteLoop image (← word (noteOffset + noteSize)) (image.bytes.length + 1) noteOffset found

def slice (start count : Nat) : List UInt8 := (image.bytes.drop start).take count

def identified (file : FileBytes) : Option Image :=
  match file.bytes with
  | 0x7f :: 0x45 :: 0x4c :: 0x46 :: elfClass :: data :: _ =>
    if 64 ≤ file.bytes.length ∧ (elfClass = 1 ∨ elfClass = 2) ∧ (data = 1 ∨ data = 2) then
      some { file with elf64 := elfClass = 2, littleEndian := data = 1 }
    else none
  | _ => none

def executableBuildId (file : FileBytes) : Except Failure (List Char) :=
  match identified file with
  | none => invalid "running executable is not a supported ELF image"
  | some image => do
    let phoff ← elfInteger image image.phoffField image.width
    let phentsize ← elfInteger image image.phentsizeField 2
    let phnum ← elfInteger image image.phnumField 2
    if phnum = 0 ∨ phnum = 0xffff ∨ phentsize < image.minimumEntry ∨ 1000000 < phnum then
      invalid "executable ELF program-header table is unsupported"
    else do
      let found ← (range phnum).foldlM (programHeader image phoff phentsize) {}
      if found.id = [] ∨ found.count ≠ 1 then
        invalid "running executable does not have exactly one GNU build ID"
      else return found.id

/-! ## Notes and segments -/

def field (start width : Nat) : Nat :=
  let digits := slice image start width
  Nat.ofDigits 256 ((if image.littleEndian then digits else digits.reverse).map UInt8.toNat)

def Image.phoff : Nat := field image image.phoffField image.width

def Image.phentsize : Nat := field image image.phentsizeField 2

def Image.phnum : Nat := field image image.phnumField 2

def padded (n : Nat) : Nat := (n + 3) / 4 * 4

structure Note where
  type : Nat
  name : List UInt8
  description : List UInt8

def Note.isBuildId (note : Note) : Bool := note.type = 3 && note.name == gnu

def noteAt (start : Nat) : Note :=
  let nameSize := field image start 4
  ⟨field image (start + 8) 4, slice image (start + 12) nameSize,
    slice image (start + 12 + padded nameSize) (field image (start + 4) 4)⟩

def noteEnd (start : Nat) : Nat :=
  start + 12 + padded (field image start 4) + padded (field image (start + 4) 4)

inductive Notes (stop : Nat) : Nat → List Note → Prop
  | nil : Notes stop stop []
  | cons {start : Nat} {notes : List Note} (h : Notes stop (noteEnd image start) notes) :
      Notes stop start (noteAt image start :: notes)

def buildIds (notes : List Note) : List (List UInt8) :=
  (notes.filter fun note => note.isBuildId && !note.description.isEmpty).map Note.description

structure Entry (header : Nat) (notes : List Note) : Prop where
  inside : header + image.minimumEntry ≤ image.bytes.length
  other : field image header 4 ≠ 4 → notes = []
  segment : field image header 4 = 4 →
    let offset := field image (header + image.offsetField) image.width
    let size := field image (header + image.sizeField) image.width
    offset + size ≤ image.bytes.length ∧ Notes image (offset + size) offset notes

/-! ## Words -/

variable {image}

@[simp] theorem length_slice {start count : Nat} (h : start + count ≤ image.bytes.length) :
    (slice image start count).length = count := by
  simp [slice]
  omega

theorem word_eq {n : Nat} (h : n < 2 ^ 64) : word n = .ok n := if_pos h

theorem ok_bind {α β : Type} (a : α) (f : α → Except Failure β) : Except.ok a >>= f = f a := rfl

theorem readBytes_eq {start count : Nat} (h : start + count ≤ image.bytes.length) :
    readBytes image start count = .ok (slice image start count) := by
  induction count with
  | zero => simp [readBytes, slice]; rfl
  | succ count ih =>
    have hlt := image.length_lt
    have hin : start + count < image.bytes.length := by omega
    have hbyte : (do byteAt image (← word (start + count))) = .ok image.bytes[start + count] := by
      rw [word_eq (by omega), ok_bind, byteAt, getElem?_eq_getElem hin]
    have hread := ih (by omega)
    have hslice : slice image start (count + 1) = slice image start count ++ [image.bytes[start + count]] := by
      rw [slice, take_add_one, getElem?_drop, getElem?_eq_getElem hin]
      rfl
    rw [readBytes] at hread
    rw [readBytes, range_succ, mapM_append, hread, mapM_cons, hbyte, hslice]
    rfl

theorem ofDigits_lt (digits : List UInt8) : Nat.ofDigits 256 (digits.map UInt8.toNat) < 2 ^ (8 * digits.length) := by
  have hlt := Nat.ofDigits_lt_base_pow_length (b := 256) (l := digits.map UInt8.toNat) (by decide) fun x hx => by
    obtain ⟨byte, -, rfl⟩ := mem_map.mp hx
    exact byte.toNat_lt
  rwa [length_map, show 256 = 2 ^ 8 from rfl, ← pow_mul] at hlt

theorem shiftIn_eq (littleEndian : Bool) {window : List UInt8} (h : window.length ≤ 8) :
    shiftIn littleEndian window =
      Nat.ofDigits 256 ((if littleEndian then window else window.reverse).map UInt8.toNat) := by
  induction window using reverseRecOn with
  | nil => cases littleEndian <;> rfl
  | append_singleton window byte ih =>
    rw [length_append, length_singleton] at h
    have ih := ih (by omega)
    have hbyte := byte.toNat_lt
    have hpow : 2 ^ (8 * window.length) ≤ 2 ^ 56 := Nat.pow_le_pow_right (by decide) (by omega)
    cases littleEndian with
    | true =>
      -- the new byte stands above the bytes before it
      have hlt := ofDigits_lt window
      have hshift : byte.toNat <<< (8 * window.length) < 2 ^ 64 := by
        rw [Nat.shiftLeft_eq]
        exact (Nat.mul_lt_mul_of_lt_of_le hbyte hpow (by decide)).trans_le (by decide)
      simp only [shiftIn, if_true, zipIdx_append, foldl_append] at ih ⊢
      simp only [ih, zipIdx_cons, zipIdx_nil, foldl_cons, foldl_nil, Nat.zero_add, Nat.mod_eq_of_lt hshift]
      rw [Nat.or_comm, ← Nat.shiftLeft_add_eq_or_of_lt hlt, map_append, Nat.ofDigits_append, map_singleton,
        Nat.ofDigits_singleton, length_map, Nat.shiftLeft_eq, show 256 = 2 ^ 8 from rfl, ← pow_mul]
      ring
    | false =>
      -- the bytes before it move up and the new one stands below them
      have hlt := ofDigits_lt window.reverse
      rw [length_reverse] at hlt
      simp only [shiftIn, Bool.false_eq_true, if_false, foldl_append, reverse_append, reverse_singleton] at ih ⊢
      have hshift : Nat.ofDigits 256 (window.reverse.map UInt8.toNat) <<< 8 < 2 ^ 64 := by
        rw [Nat.shiftLeft_eq]
        omega
      simp only [ih, foldl_cons, foldl_nil, Nat.mod_eq_of_lt hshift]
      rw [← Nat.shiftLeft_add_eq_or_of_lt hbyte, singleton_append, map_cons, Nat.ofDigits_cons, Nat.shiftLeft_eq]
      omega

theorem elfInteger_eq {offset width : Nat} (hwidth : width = 2 ∨ width = 4 ∨ width = 8)
    (h : offset + width ≤ image.bytes.length) : elfInteger image offset width = .ok (field image offset width) := by
  rw [elfInteger, if_neg (by omega), readBytes_eq h]
  refine congrArg Except.ok (shiftIn_eq image.littleEndian ?_)
  rw [length_slice h]
  omega

theorem field_lt {start width : Nat} (h : start + width ≤ image.bytes.length) :
    field image start width < 2 ^ (8 * width) := by
  have hlength := length_slice h
  unfold field
  cases image.littleEndian with
  | true => simpa [hlength] using ofDigits_lt (slice image start width)
  | false => simpa [hlength] using ofDigits_lt (slice image start width).reverse

theorem align4_eq {n : Nat} (h : n < 2 ^ 32) : align4 n = .ok (padded n) := by
  rw [align4, if_neg (by omega), word_eq (by omega)]
  refine congrArg Except.ok (Nat.eq_of_testBit_eq fun i => ?_)
  rw [Nat.testBit_and, show 2 ^ 64 - 1 - 3 = (2 ^ 62 - 1) * 2 ^ 2 from rfl, Nat.testBit_mul_two_pow,
    Nat.testBit_two_pow_sub_one, padded, show (n + 3) / 4 * 4 = (n + 3) / 2 ^ 2 * 2 ^ 2 from rfl,
    Nat.testBit_mul_two_pow, Nat.testBit_div_two_pow]
  -- bits 0 and 1 are masked, no bit from 64 on is set
  by_cases hlow : 2 ≤ i
  · rw [Nat.sub_add_cancel hlow]
    by_cases hhigh : i - 2 < 62
    · simp [hlow, hhigh]
    · have hpow : 2 ^ 64 ≤ 2 ^ i := Nat.pow_le_pow_right (by decide) (by omega)
      simp [Nat.testBit_lt_two_pow (show n + 3 < 2 ^ i by omega)]
  · simp [hlow]

/-! ## The loops -/

/-- What is thrown. The count overflows in an image of `2^48` bytes at least. -/
def Reported (size : Nat) (e : Failure) : Prop :=
  (∃ message, e = .invalidArtifact message) ∨
    2 ^ 48 ≤ size ∧ e = .replayFailed "GNU build ID note count overflows u64"

/-- A computation that returns the values of `P` only, and else reports why not. -/
def Decides (size : Nat) {α : Type} (x : Except Failure α) (P : α → Prop) : Prop :=
  (∀ a, x = .ok a ↔ P a) ∧ ∀ e, x = .error e → Reported size e

section Decides

variable {α β : Type} {P Q : α → Prop} {size : Nat}

theorem Decides.congr {x : Except Failure α} (h : Decides size x P) (hPQ : ∀ a, P a ↔ Q a) : Decides size x Q :=
  ⟨fun a => (h.1 a).trans (hPQ a), h.2⟩

theorem decides_ok (a : α) : Decides size (.ok a) (a = ·) :=
  ⟨fun _ => ⟨Except.ok.inj, congrArg Except.ok⟩, nofun⟩

theorem decides_invalid {message : String} (h : ∀ a, ¬ P a) : Decides size (invalid message) P :=
  ⟨fun a => ⟨nofun, fun ha => absurd ha (h a)⟩, fun _ he => .inl ⟨message, (Except.error.inj he).symm⟩⟩

theorem Decides.bind {x : Except Failure α} {f : α → Except Failure β} {R : α → β → Prop}
    (hx : Decides size x P) (hf : ∀ a, P a → Decides size (f a) (R a)) :
    Decides size (x >>= f) fun b => ∃ a, P a ∧ R a b := by
  cases x with
  | error e =>
    refine ⟨fun b => ⟨nofun, ?_⟩, fun e' he => hx.2 e' (congrArg Except.error (Except.error.inj he))⟩
    rintro ⟨a, ha, -⟩
    cases (hx.1 a).mpr ha
  | ok a =>
    have ha := (hx.1 a).mp rfl
    refine ⟨fun b => ((hf a ha).1 b).trans ⟨fun hb => ⟨a, ha, hb⟩, ?_⟩, (hf a ha).2⟩
    rintro ⟨a', ha', hb⟩
    cases (hx.1 a').mpr ha'
    exact hb

end Decides

variable {start stop : Nat} {notes : List Note} {found : Found}

theorem le_noteEnd : start + 12 ≤ noteEnd image start := by
  unfold noteEnd
  omega

theorem Notes.le (h : Notes image stop start notes) : start ≤ stop := by
  induction h with
  | nil => exact le_rfl
  | @cons start _ _ ih =>
    have := @le_noteEnd image start
    omega

theorem Notes.length_le (h : Notes image stop start notes) : 12 * notes.length ≤ stop - start := by
  induction h with
  | nil => exact Nat.zero_le _
  | @cons start _ hrest ih =>
    have := hrest.le
    have := @le_noteEnd image start
    rw [length_cons]
    omega

theorem notes_iff (h : start < stop) : Notes image stop start notes ↔
    ∃ rest, notes = noteAt image start :: rest ∧
      Notes image stop (noteEnd image start) rest := by
  constructor
  · intro hnotes
    cases hnotes with
    | nil => exact absurd h (lt_irrefl _)
    | cons hrest => exact ⟨_, rfl, hrest⟩
  · rintro ⟨rest, rfl, hrest⟩
    exact .cons hrest

theorem Notes.end_le (h : Notes image stop start notes) (hlt : start < stop) : noteEnd image start ≤ stop := by
  obtain ⟨rest, -, hrest⟩ := (notes_iff hlt).mp h
  exact hrest.le

def Found.addAll (found : Found) (ids : List (List UInt8)) : Except Failure Found :=
  ids.foldlM (fun found id => found.add (hexOf id)) found

theorem decides_addAll {size : Nat} (ids : List (List UInt8))
    (hcount : size < 2 ^ 48 → found.count + ids.length < 2 ^ 64) :
    Decides size (found.addAll ids) fun found' => found.addAll ids = .ok found' := by
  refine ⟨fun _ => Iff.rfl, ?_⟩
  induction ids generalizing found with
  | nil => exact nofun
  | cons id ids ih =>
    rw [length_cons] at hcount
    rw [Found.addAll, foldlM_cons, Found.add]
    split_ifs with hconflict hfull
    · exact fun e he => .inl ⟨_, (Except.error.inj he).symm⟩
    · exact fun e he => .inr ⟨not_lt.mp fun hsize => absurd (hcount hsize) (by omega), (Except.error.inj he).symm⟩
    · exact ih fun hsize => by
        have := hcount hsize
        show found.count + 1 + ids.length < _
        omega

theorem count_addAll {ids : List (List UInt8)} {found' : Found} (h : found.addAll ids = .ok found') :
    found'.count = found.count + ids.length := by
  induction ids generalizing found with
  | nil =>
    cases h
    rfl
  | cons id ids ih =>
    obtain ⟨found₁, hfirst, hrest⟩ := bind_eq_ok.mp h
    rw [ih hrest, length_cons]
    change found.add (hexOf id) = _ at hfirst
    rw [Found.add] at hfirst
    split_ifs at hfirst
    · cases hfirst
    · cases hfirst
      show found.count + 1 + ids.length = _
      omega

theorem addAll_append (ids ids' : List (List UInt8)) :
    found.addAll (ids ++ ids') = found.addAll ids >>= fun found => found.addAll ids' := foldlM_append ..

theorem buildIds_append (notes notes' : List Note) :
    buildIds (notes ++ notes') = buildIds notes ++ buildIds notes' := by
  rw [buildIds, filter_append, map_append, buildIds, buildIds]

theorem length_buildIds_le (notes : List Note) : (buildIds notes).length ≤ notes.length := by
  rw [buildIds, length_map]
  exact length_filter_le ..

theorem takeNote_eq {type nameSize descriptionSize position description : Nat}
    (hname : position + nameSize ≤ image.bytes.length)
    (hdescription : description + descriptionSize ≤ image.bytes.length) (hsize : descriptionSize < 2 ^ 32) :
    takeNote image found type nameSize descriptionSize position description =
      found.addAll (buildIds [⟨type, slice image position nameSize, slice image description descriptionSize⟩]) := by
  have hgnu : gnuName image nameSize position = .ok (slice image position nameSize == gnu) := by
    unfold gnuName
    split_ifs with hfour
    · subst hfour
      rw [readBytes_eq hname]
      rfl
    · refine congrArg Except.ok (Bool.eq_false_iff.mpr fun heq => hfour ?_).symm
      have := congrArg length (beq_iff_eq.mp heq)
      rwa [length_slice hname] at this
  have hempty : (slice image description descriptionSize).isEmpty = decide (descriptionSize = 0) := by
    rw [Bool.eq_iff_iff, isEmpty_iff_length_eq_zero, length_slice hdescription, decide_eq_true_iff]
  rw [takeNote, hgnu]
  show (if type = 3 ∧ (slice image position nameSize == gnu) = true ∧ 0 < descriptionSize then _ else _) = _
  by_cases hnote : type = 3 ∧ (slice image position nameSize == gnu) = true ∧ 0 < descriptionSize
  · rw [if_pos hnote, word_eq (by omega), ok_bind, readBytes_eq hdescription]
    simp [buildIds, Note.isBuildId, hempty, hnote.1, hnote.2.1, hnote.2.2.ne', Found.addAll]
    rfl
  · rw [if_neg hnote]
    have hnone : buildIds [⟨type, slice image position nameSize, slice image description descriptionSize⟩] = [] := by
      rw [buildIds, map_eq_nil_iff, filter_eq_nil_iff, forall_mem_singleton]
      simpa [Note.isBuildId, hempty, Nat.pos_iff_ne_zero, and_assoc] using hnote
    rw [hnone]
    rfl

theorem decides_noteLoop (hstop : stop ≤ image.bytes.length) :
    ∀ fuel start (found : Found), start ≤ stop → stop - start < fuel →
      (image.bytes.length < 2 ^ 48 → 12 * found.count + (stop - start) < 2 ^ 64) →
      Decides image.bytes.length (noteLoop image stop fuel start found) fun found' =>
        ∃ notes, Notes image stop start notes ∧ found.addAll (buildIds notes) = .ok found' := by
  have hlt := image.length_lt
  intro fuel
  -- a note takes 12 bytes at least, so the fuel outlasts the segment
  induction fuel with
  | zero => exact fun _ _ _ h => absurd h (Nat.not_lt_zero _)
  | succ fuel ih =>
    intro start found hstart hfuel hcount
    have hle := @le_noteEnd image start
    rw [noteLoop]
    split_ifs with hend hshort
    -- nothing is left: the notes end here
    · obtain rfl : start = stop := le_antisymm hstart hend
      refine (decides_ok found).congr fun found' => ⟨fun h => ⟨[], .nil, congrArg Except.ok h⟩, ?_⟩
      rintro ⟨notes, hnotes, hadd⟩
      cases hnotes with
      | nil => exact Except.ok.inj hadd
      | cons hrest => exact absurd hrest.le (by omega)
    · exact decides_invalid fun found' h => h.elim fun notes h => absurd (h.1.end_le (by omega)) (by omega)
    · rw [elfInteger_eq (by omega) (by omega), ok_bind, word_eq (by omega), ok_bind,
        elfInteger_eq (by omega) (by omega), ok_bind, word_eq (by omega), ok_bind,
        elfInteger_eq (by omega) (by omega), ok_bind, word_eq (by omega), ok_bind]
      have hname := @field_lt image start 4 (by omega)
      have hdescription := @field_lt image (start + 4) 4 (by omega)
      rw [align4_eq hname, ok_bind, align4_eq hdescription, ok_bind]
      have hpadded : ∀ n, n ≤ padded n ∧ padded n < n + 4 := fun n => by
        unfold padded
        omega
      have hname' := hpadded (field image start 4)
      have hdescription' := hpadded (field image (start + 4) 4)
      have hnext : noteEnd image start = start + 12 + padded (field image start 4) +
        padded (field image (start + 4) 4) := rfl
      show Decides _ (if _ then _ else _) _
      -- the note ends inside the segment, or no notes tile it
      split_ifs with hbad
      · exact decides_invalid fun found' h => h.elim fun notes h => absurd (h.1.end_le (by omega)) (by omega)
      · rw [takeNote_eq (by omega) (by omega) hdescription, ← hnext]
        have hone := length_buildIds_le [noteAt image start]
        rw [length_singleton] at hone
        refine ((decides_addAll _ fun hsmall => ?_).bind fun found₁ hfirst => ih _ found₁ (by omega) (by omega)
          fun hsmall => ?_).congr fun found' => ?_
        · have := hcount hsmall
          exact (Nat.add_le_add_left hone _).trans_lt (by omega)
        · have := hcount hsmall
          have := (count_addAll hfirst).le.trans (Nat.add_le_add_left hone _)
          omega
        constructor
        · rintro ⟨found₁, hfirst, rest, hrest, hadd⟩
          refine ⟨_, .cons hrest, ?_⟩
          rw [← singleton_append, buildIds_append, addAll_append]
          exact bind_eq_ok.mpr ⟨found₁, hfirst, hadd⟩
        · rintro ⟨notes, hnotes, hadd⟩
          obtain ⟨rest, rfl, hrest⟩ := (notes_iff (by omega)).mp hnotes
          rw [← singleton_append, buildIds_append, addAll_append] at hadd
          obtain ⟨found₁, hfirst, hadd⟩ := bind_eq_ok.mp hadd
          exact ⟨found₁, hfirst, rest, hrest, hadd⟩

/-! ## The table -/

theorem Image.fields (image : Image) : (image.width = 2 ∨ image.width = 4 ∨ image.width = 8) ∧
    (4 ≤ image.minimumEntry ∧ image.offsetField + image.width ≤ image.minimumEntry ∧
      image.sizeField + image.width ≤ image.minimumEntry) ∧ image.phoffField + image.width ≤ 64 ∧
    image.phentsizeField + 2 ≤ 64 ∧ image.phnumField + 2 ≤ 64 := by
  unfold width minimumEntry offsetField sizeField phoffField phentsizeField phnumField
  cases image.elf64 <;> decide

theorem Entry.length_le {header : Nat} (h : Entry image header notes) : 12 * notes.length ≤ image.bytes.length := by
  by_cases hnote : field image header 4 = 4
  · obtain ⟨hinside, hnotes⟩ := h.segment hnote
    have := hnotes.length_le
    omega
  · simp [h.other hnote]

theorem decides_programHeader (phoff phentsize index : Nat)
    (hcount : image.bytes.length < 2 ^ 48 → 12 * found.count + image.bytes.length < 2 ^ 64) :
    Decides image.bytes.length (programHeader image phoff phentsize found index) fun found' =>
      ∃ notes, Entry image (phoff + index * phentsize) notes ∧ found.addAll (buildIds notes) = .ok found' := by
  have hlt := image.length_lt
  obtain ⟨hword, ⟨hfour, hoffset, hsize⟩, -⟩ := image.fields
  unfold programHeader
  dsimp only
  set header := phoff + index * phentsize with hheader
  by_cases hbad : 2 ^ 64 ≤ index * phentsize ∨ 2 ^ 64 ≤ header ∨ image.bytes.length < header ∨
      image.bytes.length - header < image.minimumEntry
  · rw [if_pos hbad]
    exact decides_invalid fun found' h => h.elim fun notes h => absurd h.1.inside (by omega)
  · have hinside : header + image.minimumEntry ≤ image.bytes.length := by omega
    rw [if_neg hbad, elfInteger_eq (by omega) (by omega), ok_bind]
    show Decides _ (if _ then _ else _) _
    by_cases hnote : field image header 4 = 4
    · rw [if_neg (not_not.mpr hnote)]
      show Decides _ (word _ >>= fun position => elfInteger image position _ >>= fun noteOffset => _) _
      rw [word_eq (by omega), ok_bind, elfInteger_eq hword (by omega), ok_bind, word_eq (by omega), ok_bind,
        elfInteger_eq hword (by omega), ok_bind]
      split_ifs with hout
      · exact decides_invalid fun found' h => h.elim fun notes h => absurd (h.1.segment hnote).1 (by omega)
      · rw [word_eq (by omega), ok_bind]
        refine (decides_noteLoop (by omega) _ _ found (by omega) (by omega) (by omega)).congr fun found' => ?_
        refine exists_congr fun notes => and_congr_left fun _ => ⟨fun hnotes => ?_, fun h => (h.segment hnote).2⟩
        exact ⟨hinside, fun hother => absurd hnote hother, fun _ => ⟨by omega, hnotes⟩⟩
    · rw [if_pos hnote]
      refine (decides_ok found).congr fun found' => ⟨fun h => ?_, ?_⟩
      · exact ⟨[], ⟨hinside, fun _ => rfl, fun h => absurd h hnote⟩, congrArg Except.ok h⟩
      · rintro ⟨notes, hentry, hadd⟩
        rw [hentry.other hnote] at hadd
        exact Except.ok.inj hadd

theorem decides_table (phoff phentsize : Nat) (indices : List Nat)
    (hcount : image.bytes.length < 2 ^ 48 → 12 * found.count + indices.length * image.bytes.length < 2 ^ 64) :
    Decides image.bytes.length (indices.foldlM (programHeader image phoff phentsize) found) fun found' =>
      ∃ notes, Forall₂ (fun index => Entry image (phoff + index * phentsize)) indices notes ∧
        found.addAll (buildIds notes.flatten) = .ok found' := by
  induction indices generalizing found with
  | nil =>
    refine (decides_ok found).congr fun found' => ⟨fun h => ⟨[], .nil, congrArg Except.ok h⟩, ?_⟩
    rintro ⟨notes, hnotes, hadd⟩
    cases hnotes
    exact Except.ok.inj hadd
  | cons index indices ih =>
    rw [length_cons, Nat.add_one_mul indices.length] at hcount
    rw [foldlM_cons]
    refine ((decides_programHeader phoff phentsize index (by omega)).bind fun found₁ hfirst =>
      ih fun hsmall => ?_).congr fun found' => ?_
    · obtain ⟨notes, hentry, hadd⟩ := hfirst
      have := hcount hsmall
      have := hentry.length_le
      have := length_buildIds_le notes
      have := count_addAll hadd
      omega
    constructor
    · rintro ⟨found₁, ⟨first, hentry, hfirst⟩, rest, hrest, hadd⟩
      refine ⟨first :: rest, .cons hentry hrest, ?_⟩
      rw [flatten_cons, buildIds_append, addAll_append]
      exact bind_eq_ok.mpr ⟨found₁, hfirst, hadd⟩
    · rintro ⟨notes, hnotes, hadd⟩
      cases hnotes with
      | cons hentry hrest =>
        rw [flatten_cons, buildIds_append, addAll_append] at hadd
        obtain ⟨found₁, hfirst, hadd⟩ := bind_eq_ok.mp hadd
        exact ⟨found₁, ⟨_, hentry, hfirst⟩, _, hrest, hadd⟩

theorem addAll_eq_one {ids : List (List UInt8)} (hids : ∀ id ∈ ids, id ≠ []) {id : List Char} :
    (∃ found : Found, Found.addAll {} ids = .ok found ∧ ¬ (found.id = [] ∨ found.count ≠ 1) ∧ id = found.id) ↔
      ∃ description, ids = [description] ∧ id = hexOf description := by
  constructor
  · rintro ⟨found, hadd, hone, rfl⟩
    have hcount := count_addAll hadd
    match ids, hadd, hcount with
    | [], hadd, _ =>
      cases hadd
      exact absurd (.inl rfl) hone
    | [description], hadd, _ =>
      cases hadd
      exact ⟨description, rfl, rfl⟩
    | _ :: _ :: ids, _, hcount =>
      simp only [length_cons] at hcount
      omega
  · rintro ⟨description, rfl, rfl⟩
    refine ⟨⟨hexOf description, 1⟩, rfl, ?_, rfl⟩
    obtain ⟨byte, rest, rfl⟩ := exists_cons_of_ne_nil (hids description mem_cons_self)
    simp [hexOf]

/-! ## The build ID -/

/-- The notes that the entries of the program-header table lead to. -/
structure Table (image : Image) (notes : List (List Note)) : Prop where
  phnum : image.phnum ≠ 0 ∧ image.phnum ≠ 0xffff
  phentsize : image.minimumEntry ≤ image.phentsize
  entries : Forall₂ (fun index => Entry image (image.phoff + index * image.phentsize)) (range image.phnum) notes

theorem bytes_of_identified {file : FileBytes} (h : identified file = some image) :
    file.bytes = image.bytes ∧ 64 ≤ image.bytes.length := by
  unfold identified at h
  split at h
  · split_ifs at h with hsize
    cases h
    exact ⟨rfl, hsize.1⟩
  · cases h

/-- The build ID is the description of the only note of that kind with a description, and what is refused
has none; nothing is read outside the file, no sum wraps and every loop ends. -/
theorem executableBuildId_spec (file : FileBytes) :
    Decides file.bytes.length (executableBuildId file) fun id =>
      ∃ image notes, identified file = some image ∧ Table image notes ∧
        ∃ description, buildIds notes.flatten = [description] ∧ id = hexOf description := by
  unfold executableBuildId
  split
  · rename_i hnone
    refine decides_invalid ?_
    rintro id ⟨image, notes, himage, -⟩
    rw [hnone] at himage
    cases himage
  · rename_i image himage
    obtain ⟨hbytes, hsize⟩ := bytes_of_identified himage
    obtain ⟨hword, -, hphoff, hphentsize, hphnum⟩ := image.fields
    rw [hbytes, elfInteger_eq hword (by omega), elfInteger_eq (by omega) (by omega),
      elfInteger_eq (by omega) (by omega)]
    have hlt : image.phnum < 2 ^ 16 := field_lt (by omega)
    show Decides _ (if image.phnum = 0 ∨ image.phnum = 0xffff ∨ image.phentsize < image.minimumEntry ∨
      1000000 < image.phnum then _ else _) _
    split_ifs with hbad
    · refine decides_invalid ?_
      rintro id ⟨image', notes, himage', htable, -⟩
      cases himage.symm.trans himage'
      obtain ⟨⟨hzero, hmax⟩, hentry, -⟩ := htable
      omega
    · have hids : ∀ notes, ∀ id ∈ buildIds notes, id ≠ [] := fun notes id hid => by
        obtain ⟨note, hnote, rfl⟩ := mem_map.mp hid
        simpa using And.right (Bool.and_eq_true_iff.mp (mem_filter.mp hnote).2)
      have hlast : ∀ found : Found, Decides image.bytes.length (if found.id = [] ∨ found.count ≠ 1 then
          invalid "running executable does not have exactly one GNU build ID" else return found.id)
          fun id => ¬ (found.id = [] ∨ found.count ≠ 1) ∧ id = found.id := fun found => by
        split_ifs with hone
        · exact decides_invalid fun _ h => h.1 hone
        · exact (decides_ok _).congr fun id => by rw [and_iff_right hone, eq_comm]
      refine ((decides_table _ _ _ fun hsmall => ?_).bind fun found _ => hlast found).congr fun id => ?_
      -- fewer than 2^16 entries, each with fewer than 2^48 bytes of notes
      · have hmul := Nat.mul_lt_mul'' hlt hsmall
        rwa [length_range, Nat.mul_zero, Nat.zero_add]
      constructor
      · rintro ⟨found, ⟨notes, hentries, hadd⟩, hone⟩
        exact ⟨image, notes, himage, ⟨by omega, by omega, hentries⟩,
          (addAll_eq_one (hids _)).mp ⟨found, hadd, hone⟩⟩
      · rintro ⟨image', notes, himage', htable, hid⟩
        cases himage.symm.trans himage'
        obtain ⟨found, hadd, hone⟩ := (addAll_eq_one (hids _)).mpr hid
        exact ⟨found, ⟨notes, htable.entries, hadd⟩, hone⟩

/-- A 64-bit image with one segment of two notes, of which the first has no description. -/
def twoNotes : FileBytes where
  bytes := [0x7f, 0x45, 0x4c, 0x46, 2, 1] ++ replicate 26 0 ++ [64] ++ replicate 21 0 ++ [56, 0, 1] ++
    replicate 7 0 ++ [4] ++ replicate 7 0 ++ [120] ++ replicate 23 0 ++ [36] ++ replicate 23 0 ++
    [4, 0, 0, 0, 0, 0, 0, 0, 3, 0, 0, 0] ++ gnu ++ [4, 0, 0, 0, 1, 0, 0, 0, 3, 0, 0, 0] ++ gnu ++ [0xab, 0, 0, 0]
  length_lt := by decide +kernel

def twoNotesImage : Image := { twoNotes with elf64 := true, littleEndian := true }

set_option maxRecDepth 4000 in
/-- A note without a description is not counted. -/
theorem empty_note_ignored :
    identified twoNotes = some twoNotesImage ∧ executableBuildId twoNotes = .ok ['a', 'b'] ∧
      ∃ notes, Table twoNotesImage notes ∧ (notes.flatten.countP Note.isBuildId) = 2 := by
  have hrange : range twoNotesImage.phnum = [0] := by decide +kernel
  have hoffset : field twoNotesImage (twoNotesImage.phoff + 0 * twoNotesImage.phentsize +
    twoNotesImage.offsetField) twoNotesImage.width = 120 := by decide +kernel
  have hsize : field twoNotesImage (twoNotesImage.phoff + 0 * twoNotesImage.phentsize +
    twoNotesImage.sizeField) twoNotesImage.width = 36 := by decide +kernel
  have hend : noteEnd twoNotesImage (noteEnd twoNotesImage 120) = 156 := by decide +kernel
  refine ⟨rfl, by rfl, [[noteAt twoNotesImage 120, noteAt twoNotesImage (noteEnd twoNotesImage 120)]],
    ⟨by decide +kernel, by decide +kernel, ?_⟩, by decide +kernel⟩
  rw [hrange]
  refine .cons ⟨by decide +kernel, fun hother => absurd (by decide +kernel) hother, fun _ => ?_⟩ .nil
  rw [hoffset, hsize]
  exact ⟨by decide +kernel, .cons (.cons (hend ▸ .nil))⟩

end Bravo.Replay
