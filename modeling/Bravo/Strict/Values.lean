import Bravo.Strict.Numbers

/-! # Reading values

The recursive descent. Soundness is by induction on the rounds, three statements at once, for a value
and for the loops over items and entries; completeness is by induction on the derivation of the text,
with the items and entries still to come as the second induction.
-/

namespace Bravo.Strict

open List Element

/-! ## Blanks and rows -/

theorem blank_takeWhile (rest : Bytes) : Blank (rest.takeWhile isBlank) := takeWhile_all

theorem Blank.append {w w' : Bytes} (h : Blank w) (h' : Blank w') : Blank (w ++ w') := fun b hb =>
  (mem_append.mp hb).elim (h b) (h' b)

theorem Blank.nil : Blank [] := nofun

def EndsBlank (rest : Bytes) : Prop := ∀ b, rest.head? = some b → isBlank b = false

theorem dropWhile_blank {w rest : Bytes} (hw : Blank w) (hrest : EndsBlank rest) :
    (w ++ rest).dropWhile isBlank = rest := by
  rw [dropWhile_append_of_pos hw]
  cases rest with
  | nil => rfl
  | cons b rest => simp [hrest b rfl]

variable {b : UInt8}

theorem endsBlank_cons {rest : Bytes} (h : isBlank b = false) : EndsBlank (b :: rest) := by
  rintro c hc
  obtain rfl : b = c := by simpa using hc
  exact h

theorem exists_blank (rest : Bytes) : ∃ w, Blank w ∧ w ++ rest.dropWhile isBlank = rest :=
  ⟨_, blank_takeWhile rest, takeWhile_append_dropWhile⟩

theorem blank_of_dropWhile {rest : Bytes} (h : rest.dropWhile isBlank = []) : Blank rest := by
  obtain ⟨w, hw, hsplit⟩ := exists_blank rest
  rw [h, append_nil] at hsplit
  exact hsplit ▸ hw

theorem dropWhile_of_blank {w : Bytes} (h : Blank w) : w.dropWhile isBlank = [] := by
  have hnil : EndsBlank ([] : Bytes) := nofun
  simpa using dropWhile_blank h hnil

theorem isBlank_iff : isBlank b = true ↔ b = 0x20 ∨ b = 0x09 ∨ b = 0x0d ∨ b = 0x0a := by
  simp [isBlank, or_assoc]

theorem ends_blank {w rest : Bytes} (hw : Blank w) (hrest : Ends rest) : Ends (w ++ rest) := by
  cases w with
  | nil => exact hrest
  | cons b w =>
    rintro c hc
    obtain rfl : b = c := by simpa using hc
    rcases isBlank_iff.mp (hw b mem_cons_self) with rfl | rfl | rfl | rfl <;> decide

def IsDelimiter (b : UInt8) : Prop := b = comma ∨ b = closeBracket ∨ b = closeBrace

theorem IsDelimiter.ends (hb : IsDelimiter b) (rest : Bytes) : Ends (b :: rest) := by
  rintro c hc
  obtain rfl : b = c := by simpa using hc
  rcases hb with rfl | rfl | rfl <;> decide

theorem IsDelimiter.dropWhile (hb : IsDelimiter b) {w : Bytes} (hw : Blank w) (rest : Bytes) :
    (w ++ b :: rest).dropWhile isBlank = b :: rest := by
  refine dropWhile_blank hw (endsBlank_cons ?_)
  rcases hb with rfl | rfl | rfl <;> rfl

theorem commaSeparated_cons (x y : Bytes) (xs : List Bytes) :
    commaSeparated (x :: y :: xs) = x ++ comma :: commaSeparated (y :: xs) := rfl

/-! ## Maps -/

section Maps

variable {α : Type}

theorem map_insertEntry_perm (k : Bytes) (v : α) (es : List (Bytes × α)) :
    ((insertEntry k v es).map (·.1)).Perm (k :: es.map (·.1)) := by
  induction es with
  | nil => exact .refl _
  | cons e es ih =>
    rw [insertEntry]
    split_ifs with h
    · exact .refl _
    · exact (List.Perm.cons _ ih).trans (.swap _ _ _)

def insertAll (ms entries : List (Bytes × α)) : List (Bytes × α) :=
  ms.foldl (fun es m => insertEntry m.1 m.2 es) entries

theorem insertAll_nil (ms : List (Bytes × α)) : insertAll ms [] = mapOf ms := rfl

theorem mem_insertEntry {k k' : Bytes} {v : α} {es : List (Bytes × α)} :
    k' ∈ (insertEntry k v es).map (·.1) ↔ k' = k ∨ k' ∈ es.map (·.1) := by
  rw [(map_insertEntry_perm k v es).mem_iff, mem_cons]

end Maps

/-! ## Texts -/

section Texts

variable {F : Type} {read : Bytes → Option F} {limit d n : Nat} {raw : Bytes} {v : JsonValue F}

theorem Number.ne_nil (h : Number read raw v) : raw ≠ [] := by
  cases h with
  | unsigned hint => exact hint.ne_nil
  | negative => simp
  | floating _ hint => simp [hint.ne_nil]

theorem Text.ne_nil (h : Text read limit d raw v n) : raw ≠ [] := by
  cases h with
  | number _ h => exact h.ne_nil
  | string _ h => cases h; simp
  | _ => simp

end Texts

/-! ## What is read is a text -/

section Sound

variable {ε F : Type} (m : Messages ε) (read : Bytes → Option F) (bounds : Bounds)

def ReadsValue (d : Nat) (rest : Bytes) (k : Nat) (v : JsonValue F) (t : Scan) : Prop :=
  ∃ raw n, Text read bounds.depth d raw v n ∧ rest = raw ++ t.rest ∧ t.nodes = k + n ∧ t.nodes ≤ bounds.nodes

def ReadsElements (d : Nat) (items : List (JsonValue F)) (rest : Bytes) (k : Nat) (v : JsonValue F)
    (t : Scan) : Prop :=
  ∃ es : List (Element F), es ≠ [] ∧ (∀ e ∈ es, e.Blanks) ∧
    (∀ e ∈ es, Text read bounds.depth d e.raw e.value e.nodes) ∧
    rest = commaSeparated (es.map Element.text) ++ closeBracket :: t.rest ∧
    v = .array (items ++ es.map (·.value)) ∧
    t.nodes = k + (es.map (·.nodes)).sum ∧ t.nodes ≤ bounds.nodes

def ReadsMembers (d : Nat) (entries : List (Bytes × JsonValue F)) (rest : Bytes) (k : Nat)
    (v : JsonValue F) (t : Scan) : Prop :=
  ∃ ms : List (Member F), ms ≠ [] ∧ (∀ e ∈ ms, e.Blanks) ∧ (∀ e ∈ ms, Str e.keyRaw e.key) ∧
    (ms.map (·.key)).Nodup ∧ (∀ e ∈ ms, e.key ∉ entries.map (·.1)) ∧
    (∀ e ∈ ms, Text read bounds.depth d e.raw e.value e.nodes) ∧
    rest = commaSeparated (ms.map Member.text) ++ closeBrace :: t.rest ∧
    v = .object (insertAll (ms.map Member.entry) entries) ∧
    t.nodes = k + (ms.map (·.nodes)).sum ∧ t.nodes ≤ bounds.nodes

def Element.lead (w : Bytes) (e : Element F) : Element F := { e with before := w ++ e.before }

def Member.blankLead (w : Bytes) (e : Member F) : Member F := { e with lead := w ++ e.lead }

theorem ReadsElements.skip {d k : Nat} {items : List (JsonValue F)} {rest : Bytes} {v : JsonValue F}
    {t : Scan} (h : ReadsElements read bounds d items (rest.dropWhile isBlank) k v t) :
    ReadsElements read bounds d items rest k v t := by
  obtain ⟨es, hne, hblanks, htexts, hrest, hv, hn, hle⟩ := h
  obtain ⟨e, es, rfl⟩ := exists_cons_of_ne_nil hne
  rw [forall_mem_cons] at hblanks htexts
  have hlead : (e.lead (rest.takeWhile isBlank)).text = rest.takeWhile isBlank ++ e.text :=
    append_assoc _ _ _
  refine ⟨e.lead (rest.takeWhile isBlank) :: es, cons_ne_nil _ _, ?_, ?_, ?_, hv, hn, hle⟩
  · exact forall_mem_cons.mpr
      ⟨⟨(blank_takeWhile rest).append hblanks.1.1, hblanks.1.2⟩, hblanks.2⟩
  · exact forall_mem_cons.mpr htexts
  · calc rest = rest.takeWhile isBlank ++ rest.dropWhile isBlank := takeWhile_append_dropWhile.symm
      _ = rest.takeWhile isBlank ++
          (commaSeparated ((e :: es).map text) ++ closeBracket :: t.rest) := by rw [← hrest]
      _ = _ := by
        cases es with
        | nil => simp [commaSeparated, hlead]
        | cons e' es => simp [commaSeparated, hlead]

theorem ReadsMembers.skip {d k : Nat} {entries : List (Bytes × JsonValue F)} {rest : Bytes}
    {v : JsonValue F} {t : Scan} (h : ReadsMembers read bounds d entries (rest.dropWhile isBlank) k v t) :
    ReadsMembers read bounds d entries rest k v t := by
  obtain ⟨ms, hne, hblanks, hkeys, hnodup, hnew, htexts, hrest, hv, hn, hle⟩ := h
  obtain ⟨e, ms, rfl⟩ := exists_cons_of_ne_nil hne
  rw [forall_mem_cons] at hblanks
  have hlead : (e.blankLead (rest.takeWhile isBlank)).text = rest.takeWhile isBlank ++ e.text :=
    append_assoc _ _ _
  refine ⟨e.blankLead (rest.takeWhile isBlank) :: ms, cons_ne_nil _ _, ?_,
    forall_mem_cons.mpr (forall_mem_cons.mp hkeys), hnodup,
    forall_mem_cons.mpr (forall_mem_cons.mp hnew),
    forall_mem_cons.mpr (forall_mem_cons.mp htexts), ?_, hv, hn, hle⟩
  · exact forall_mem_cons.mpr ⟨⟨(blank_takeWhile rest).append hblanks.1.1, hblanks.1.2⟩, hblanks.2⟩
  · calc rest = rest.takeWhile isBlank ++ rest.dropWhile isBlank := takeWhile_append_dropWhile.symm
      _ = rest.takeWhile isBlank ++
          (commaSeparated ((e :: ms).map Member.text) ++ closeBrace :: t.rest) := by rw [← hrest]
      _ = _ := by
        cases ms with
        | nil => simp [commaSeparated, hlead]
        | cons e' ms => simp [commaSeparated, hlead]

theorem length_dropWhile_le (rest : Bytes) : (rest.dropWhile isBlank).length ≤ rest.length :=
  (dropWhile_sublist _).length_le

structure Sound (fuel : Nat) : Prop where
  value : ∀ (d : Nat) (rest : Bytes) (k : Nat), 2 * rest.length + 1 ≤ fuel → k ≤ bounds.nodes →
    wp (value m read bounds fuel d) (ReadsValue read bounds d rest k) Refuses ⟨rest, k⟩
  elements : ∀ (d : Nat) (items : List (JsonValue F)) (rest : Bytes) (k : Nat),
    2 * rest.length + 2 ≤ fuel → k ≤ bounds.nodes →
    wp (elements m read bounds fuel d items) (ReadsElements read bounds d items rest k) Refuses ⟨rest, k⟩
  members : ∀ (d : Nat) (entries : List (Bytes × JsonValue F)) (rest : Bytes) (k : Nat),
    2 * rest.length + 2 ≤ fuel → k ≤ bounds.nodes →
    wp (members m read bounds fuel d entries) (ReadsMembers read bounds d entries rest k) Refuses ⟨rest, k⟩

variable {m read bounds} {fuel : Nat}

theorem Sound.elements_succ (ih : Sound m read bounds fuel) (d : Nat) (items : List (JsonValue F))
    (rest : Bytes) (k : Nat) (hfuel : 2 * rest.length + 2 ≤ fuel + 1) (hk : k ≤ bounds.nodes) :
    wp (Strict.elements m read bounds (fuel + 1) d items) (ReadsElements read bounds d items rest k) Refuses
      ⟨rest, k⟩ := by
  rw [Strict.elements, wp_bind]
  refine wp_mono (ih.value d rest k (by omega) hk) ?_ fun _ _ h => h
  rintro v ⟨rest₁, k₁⟩ ⟨raw, n, htext, rfl, rfl, hle⟩
  have hpos := length_pos_iff.mpr htext.ne_nil
  have hskip := length_dropWhile_le rest₁
  obtain ⟨w, hafter, hsplit⟩ := exists_blank rest₁
  simp only [length_append] at hfuel
  simp only [wp_bind, wp_skip, wp_take, wp_ite, wp_pure, wp_fail, refuses_fail, implies_true]
  refine ⟨fun rest₂ hrest₂ => ⟨fun _ => ?_, fun h => absurd trivial h⟩, fun _ => ⟨by rintro ⟨⟩, fun _ =>
    ⟨fun rest₂ hrest₂ => ⟨fun _ => ?_, trivial⟩, fun _ => ⟨by rintro ⟨⟩, trivial⟩⟩⟩⟩
  · -- the last item
    refine ⟨[{ raw := raw, after := w, value := v, nodes := n }],
      cons_ne_nil _ _, ?_, ?_, ?_, rfl, rfl, hle⟩
    · simpa using ⟨Blank.nil, hafter⟩
    · simpa using htext
    · rw [hrest₂] at hsplit
      rw [← hsplit]
      simp [commaSeparated, text]
  · have hlength := congrArg List.length hrest₂
    have hskip₂ := length_dropWhile_le rest₂
    simp only [length_cons] at hlength
    refine wp_mono (ih.elements d (items ++ [v]) (rest₂.dropWhile isBlank) (k + n) (by omega) hle) ?_
      fun _ _ h => h
    intro v' t h
    obtain ⟨es, hne, hblanks, htexts, hrest, hv, hn, hle'⟩ := h.skip
    obtain ⟨e, es, rfl⟩ := exists_cons_of_ne_nil hne
    refine ⟨{ raw := raw, after := w, value := v, nodes := n } :: e :: es,
      cons_ne_nil _ _, forall_mem_cons.mpr ⟨⟨Blank.nil, hafter⟩, hblanks⟩,
      forall_mem_cons.mpr ⟨htext, htexts⟩, ?_, ?_, ?_, hle'⟩
    · rw [hrest₂, hrest] at hsplit
      simp only [map_cons, commaSeparated_cons] at hsplit ⊢
      rw [← hsplit]
      simp [text]
    · rw [hv]
      simp
    · rw [hn]
      simp [Nat.add_assoc]

theorem Str.head {raw out : Bytes} (h : Str raw out) : ∃ tail, raw = quote :: tail := by
  cases h
  exact ⟨_, rfl⟩

theorem Str.ne_nil {raw out : Bytes} (h : Str raw out) : raw ≠ [] := by
  cases h
  simp

theorem Sound.members_succ (ih : Sound m read bounds fuel) (d : Nat) (entries : List (Bytes × JsonValue F))
    (rest : Bytes) (k : Nat) (hfuel : 2 * rest.length + 2 ≤ fuel + 1) (hk : k ≤ bounds.nodes) :
    wp (Strict.members m read bounds (fuel + 1) d entries) (ReadsMembers read bounds d entries rest k) Refuses
      ⟨rest, k⟩ := by
  rw [Strict.members]
  cases rest with
  | nil => simp
  | cons b rest =>
  simp only [wp_bind, wp_get, wp_ite, wp_byteAt, wp_fail, refuses_fail, implies_true, true_and]
  intro _
  refine ⟨fun _ _ _ => ?_, fun h => absurd h (by simp)⟩
  refine wp_mono (string_sound m (b :: rest) k) ?_ fun _ _ h => h
  rintro key ⟨rest₁, k₁⟩ ⟨keyRaw, hkey, hrest, rfl⟩
  have hpos := length_pos_iff.mpr hkey.ne_nil
  have hlength := congrArg List.length hrest
  have hskip := length_dropWhile_le rest₁
  obtain ⟨w₁, hw₁, hsplit₁⟩ := exists_blank rest₁
  simp only [length_append] at hlength
  simp only [wp_skip, wp_take]
  refine ⟨fun rest₂ hrest₂ => ⟨fun _ => ?_, trivial⟩, fun _ => ⟨by rintro ⟨⟩, trivial⟩⟩
  have hlength₂ := congrArg List.length hrest₂
  have hskip₂ := length_dropWhile_le rest₂
  obtain ⟨w₂, hw₂, hsplit₂⟩ := exists_blank rest₂
  simp only [length_cons] at hlength₂
  refine wp_mono (ih.value d (rest₂.dropWhile isBlank) k₁ (by omega) hk) ?_ fun _ _ h => h
  rintro v ⟨rest₃, k₃⟩ ⟨raw, n, htext, hrest₃, rfl, hle⟩
  obtain ⟨w₃, hw₃, hsplit₃⟩ := exists_blank rest₃
  have hskip₃ := length_dropWhile_le rest₃
  have hlength₃ := congrArg List.length hrest₃
  simp only [length_append] at hlength₃
  unfold emplace
  split_ifs with hmem
  · exact ⟨_, rfl⟩
  -- the entry that was read, with the blanks around its parts
  let e : Member F :=
    { raw, before := w₂, after := w₃, value := v, nodes := n, keyRaw, keyAfter := w₁, key }
  have htextOf : ∀ tail, w₃ ++ tail = rest₃ → b :: rest = e.text ++ tail := fun tail htail => by
    rw [hrest, ← hsplit₁, hrest₂, ← hsplit₂, hrest₃, ← htail]
    simp [e, Member.text, text]
  have hblanks : e.Blanks := ⟨Blank.nil, hw₁, hw₂, hw₃⟩
  simp only [wp_bind, wp_skip, wp_take, wp_ite, wp_pure, wp_fail, refuses_fail, implies_true]
  refine ⟨fun rest₄ hrest₄ => ⟨fun _ => ?_, fun h => absurd trivial h⟩, fun _ => ⟨by rintro ⟨⟩, fun _ =>
    ⟨fun rest₄ hrest₄ => ⟨fun _ => ?_, trivial⟩, fun _ => ⟨by rintro ⟨⟩, trivial⟩⟩⟩⟩
  · -- the last entry
    rw [hrest₄] at hsplit₃
    refine ⟨[e], cons_ne_nil _ _, ?_, ?_, nodup_singleton _, ?_, ?_, htextOf _ hsplit₃, rfl, rfl, hle⟩
    · simpa using hblanks
    · simpa using hkey
    · simpa using hmem
    · simpa using htext
  · have hlength₄ := congrArg List.length hrest₄
    have hskip₄ := length_dropWhile_le rest₄
    simp only [length_cons] at hlength₄ hlength hfuel
    -- behind a comma the loop goes on with less text
    refine wp_mono (ih.members d (insertEntry key v entries) (rest₄.dropWhile isBlank) (k₁ + n)
      (by omega) hle) ?_ fun _ _ h => h
    intro v' t h
    obtain ⟨ms, hne, hblanks', hkeys, hnodup, hnew, htexts, hrest', hv, hn, hle'⟩ := h.skip
    obtain ⟨e', ms, rfl⟩ := exists_cons_of_ne_nil hne
    refine ⟨e :: e' :: ms, cons_ne_nil _ _, forall_mem_cons.mpr ⟨hblanks, hblanks'⟩,
      forall_mem_cons.mpr ⟨hkey, hkeys⟩, nodup_cons.mpr ⟨?_, hnodup⟩,
      forall_mem_cons.mpr ⟨hmem, ?_⟩, forall_mem_cons.mpr ⟨htext, htexts⟩, ?_, hv, ?_, hle'⟩
    · intro hin
      obtain ⟨e'', hmem'', heq⟩ := mem_map.mp hin
      exact hnew e'' hmem'' (mem_insertEntry.mpr (.inl heq))
    · exact fun e'' hmem'' hin => hnew e'' hmem'' (mem_insertEntry.mpr (.inr hin))
    · rw [hrest₄, hrest'] at hsplit₃
      rw [htextOf _ hsplit₃]
      simp [commaSeparated]
    · rw [hn]
      simp [e, Nat.add_assoc]

theorem Sound.array (ih : Sound m read bounds fuel) {d k : Nat} {rest : Bytes}
    (hfuel : 2 * rest.length + 2 ≤ fuel) (hd : d ≤ bounds.depth) (hk : k + 1 ≤ bounds.nodes) :
    wp (do
        skip
        if ← take closeBracket then return .array []
        else Strict.elements m read bounds fuel (d + 1) [])
      (ReadsValue read bounds d (openBracket :: rest) k) Refuses ⟨rest, k + 1⟩ := by
  have hskip := length_dropWhile_le rest
  simp only [wp_bind, wp_skip, wp_take, wp_ite, wp_pure]
  refine ⟨fun rest' hrest => ⟨fun _ => ?_, fun h => absurd trivial h⟩, fun _ => ⟨by rintro ⟨⟩, fun _ => ?_⟩⟩
  · obtain ⟨w, hw, hsplit⟩ := exists_blank rest
    rw [hrest] at hsplit
    refine ⟨openBracket :: (w ++ [closeBracket]), 1, .emptyArray hd hw, ?_, rfl, hk⟩
    simp [← hsplit]
  · refine wp_mono (ih.elements (d + 1) [] (rest.dropWhile isBlank) (k + 1) (by omega) hk) ?_ fun _ _ h => h
    intro v t h
    obtain ⟨es, hne, hblanks, htexts, hrest, rfl, hn, hle⟩ := h.skip
    refine ⟨_, _, .array hd hne hblanks htexts, ?_, ?_, hle⟩
    · simp [hrest]
    · rw [hn]
      omega

theorem Sound.object (ih : Sound m read bounds fuel) {d k : Nat} {rest : Bytes}
    (hfuel : 2 * rest.length + 2 ≤ fuel) (hd : d ≤ bounds.depth) (hk : k + 1 ≤ bounds.nodes) :
    wp (do
        skip
        if ← take closeBrace then return .object []
        else Strict.members m read bounds fuel (d + 1) [])
      (ReadsValue read bounds d (openBrace :: rest) k) Refuses ⟨rest, k + 1⟩ := by
  have hskip := length_dropWhile_le rest
  simp only [wp_bind, wp_skip, wp_take, wp_ite, wp_pure]
  refine ⟨fun rest' hrest => ⟨fun _ => ?_, fun h => absurd trivial h⟩, fun _ => ⟨by rintro ⟨⟩, fun _ => ?_⟩⟩
  · obtain ⟨w, hw, hsplit⟩ := exists_blank rest
    rw [hrest] at hsplit
    refine ⟨openBrace :: (w ++ [closeBrace]), 1, .emptyObject hd hw, ?_, rfl, hk⟩
    simp [← hsplit]
  · refine wp_mono (ih.members (d + 1) [] (rest.dropWhile isBlank) (k + 1) (by omega) hk) ?_ fun _ _ h => h
    intro v t h
    obtain ⟨ms, hne, hblanks, hkeys, hnodup, -, htexts, hrest, rfl, hn, hle⟩ := h.skip
    rw [insertAll_nil]
    refine ⟨_, _, .object hd hne hblanks hkeys hnodup htexts, ?_, ?_, hle⟩
    · simp [hrest]
    · rw [hn]
      omega

theorem Sound.value_succ (ih : Sound m read bounds fuel) (d : Nat) (rest : Bytes) (k : Nat)
    (hfuel : 2 * rest.length + 1 ≤ fuel + 1) (hk : k ≤ bounds.nodes) :
    wp (Strict.value m read bounds (fuel + 1) d) (ReadsValue read bounds d rest k) Refuses ⟨rest, k⟩ := by
  rw [Strict.value]
  simp only [node, wp_bind, wp_get, wp_ite, wp_modify, wp_fail, refuses_fail, implies_true, true_and]
  intro hdepth hnodes
  have hd : d ≤ bounds.depth := not_lt.mp hdepth
  have hk' : k + 1 ≤ bounds.nodes := by
    have : k ≠ bounds.nodes := hnodes
    omega
  cases rest with
  | nil => simp
  | cons b rest =>
  simp only [wp_byteAt, getElem?_cons_zero, Option.some.injEq, reduceCtorEq, false_implies, and_true]
  rintro - b' rfl
  have hword : ∀ (word : Bytes) (v : JsonValue F), (b :: rest).take word.length = word →
      Text read bounds.depth d word v 1 →
      wp (advance word.length) (fun _ t => ReadsValue read bounds d (b :: rest) k v t) (Refuses (ε := ε))
        ⟨b :: rest, k + 1⟩ := fun word v htake htext =>
    wp_advance_word htake fun tail htail => ⟨word, 1, htext, htail, rfl, hk'⟩
  refine ⟨fun _ => ?_, fun _ => ⟨fun hnull => hword nullWord .null hnull (.null hd), fun _ =>
    ⟨fun htrue => hword trueWord (.bool true) htrue (.true hd), fun _ =>
    ⟨fun hfalse => hword falseWord (.bool false) hfalse (.false hd), fun _ => ⟨fun _ => ?_, fun _ => ?_⟩⟩⟩⟩⟩
  · refine wp_mono (string_sound m (b :: rest) (k + 1)) ?_ fun _ _ h => h
    rintro out t ⟨raw, hstr, hrest, ht⟩
    exact ⟨raw, 1, .string hd hstr, hrest, ht, ht ▸ hk'⟩
  · refine wp_mono (number_sound m read (b :: rest)) ?_ fun _ _ h => h
    rintro v t ⟨raw, hnumber, hrest, ht⟩
    exact ⟨raw, 1, .number hd hnumber, hrest, ht, ht ▸ hk'⟩
  · rw [wp_take]
    refine ⟨fun rest' hrest => ⟨fun _ => ?_, fun h => absurd rfl h⟩, fun _ => ⟨by rintro ⟨⟩, fun _ => ?_⟩⟩
    · obtain ⟨rfl, rfl⟩ := cons_eq_cons.mp hrest
      have hrounds : 2 * rest.length + 2 ≤ fuel := by
        rw [length_cons] at hfuel
        omega
      have hcall := ih.array hrounds hd hk'
      simpa only [wp_bind, wp_ite] using hcall
    · rw [wp_take]
      refine ⟨fun rest' hrest => fun _ => ?_, fun _ => by rintro ⟨⟩⟩
      obtain ⟨rfl, rfl⟩ := cons_eq_cons.mp hrest
      have hrounds : 2 * rest.length + 2 ≤ fuel := by
        rw [length_cons] at hfuel
        omega
      have hcall := ih.object hrounds hd hk'
      simpa only [wp_bind, wp_ite] using hcall

theorem sound (m : Messages ε) (read : Bytes → Option F) (bounds : Bounds) : ∀ fuel, Sound m read bounds fuel
  | 0 => ⟨fun _ _ _ h => absurd h (by omega), fun _ _ _ _ h => absurd h (by omega),
      fun _ _ _ _ h => absurd h (by omega)⟩
  | fuel + 1 => ⟨(sound m read bounds fuel).value_succ, (sound m read bounds fuel).elements_succ,
      (sound m read bounds fuel).members_succ⟩

end Sound

/-! ## Every text is read -/

section Complete

variable {ε F : Type} (m : Messages ε) (read : Bytes → Option F) (bounds : Bounds)

def Completes (d : Nat) (raw : Bytes) (v : JsonValue F) (n : Nat) : Prop :=
  ∀ (fuel : Nat) (rest : Bytes) (k : Nat) (Q : JsonValue F → Scan → Prop) (E : Stop ε → Scan → Prop),
    2 * raw.length + 1 ≤ fuel → Ends rest → k + n ≤ bounds.nodes → Q v ⟨rest, k + n⟩ →
    wp (value m read bounds fuel d) Q E ⟨raw ++ rest, k⟩

variable {m read bounds} {d k fuel : Nat} {rest : Bytes} {Q : JsonValue F → Scan → Prop}
  {E : Stop ε → Scan → Prop}

variable {v : JsonValue F}

theorem Number.head {raw : Bytes} (h : Number read raw v) :
    ∃ b tail, raw = b :: tail ∧ (b = minus ∨ isDigit b = true) := by
  have hint : ∀ int : Bytes, Integer int → ∀ tail, ∃ b tail', int ++ tail = b :: tail' ∧
      (b = minus ∨ isDigit b = true) := fun int hint tail => by
    obtain ⟨d, ds, rfl⟩ := exists_cons_of_ne_nil hint.ne_nil
    exact ⟨d, ds ++ tail, rfl, .inr (hint.digits_all d mem_cons_self)⟩
  cases h with
  | unsigned h => simpa using hint _ h []
  | negative h => exact ⟨_, _, rfl, .inl rfl⟩
  | floating hsign h =>
    cases hsign with
    | none => exact hint _ h _
    | minus => exact ⟨_, _, rfl, .inl rfl⟩

theorem Text.head {limit n : Nat} {raw : Bytes} (h : Text read limit d raw v n) :
    ∃ b tail, raw = b :: tail ∧ isBlank b = Bool.false ∧ b ≠ closeBracket := by
  cases h with
  | number _ h =>
    obtain ⟨b, tail, rfl, hb⟩ := h.head
    refine ⟨b, tail, rfl, ?_, ?_⟩
    · rw [Bool.eq_false_iff]
      intro hblank
      rcases isBlank_iff.mp hblank with rfl | rfl | rfl | rfl <;> exact absurd hb (by decide)
    · rintro rfl
      exact absurd hb (by decide)
  | string _ h =>
    obtain ⟨tail, rfl⟩ := h.head
    exact ⟨_, tail, rfl, rfl, by decide⟩
  | _ => exact ⟨_, _, rfl, rfl, by decide⟩

theorem Text.endsBlank {limit n : Nat} {raw : Bytes} (h : Text read limit d raw v n)
    (tail : Bytes) : EndsBlank (raw ++ tail) := by
  obtain ⟨b, tail', rfl, hb, -⟩ := h.head
  exact endsBlank_cons hb

variable {tail : Bytes}

theorem wp_value_number {b : UInt8} (hd : d ≤ bounds.depth) (hk : k + 1 ≤ bounds.nodes)
    (hb : b = minus ∨ isDigit b = true) (h : wp (number m read) Q E ⟨b :: tail, k + 1⟩) :
    wp (value m read bounds (fuel + 1) d) Q E ⟨b :: tail, k⟩ := by
  have hne : ∀ c : UInt8, (c = minus ∨ isDigit c = true) ∨ b ≠ c := fun c => by
    by_cases hc : b = c
    · exact .inl (hc ▸ hb)
    · exact .inr hc
  have hquote : b ≠ quote := (hne quote).resolve_left (by decide)
  have hn : b ≠ 0x6e := (hne 0x6e).resolve_left (by decide)
  have ht : b ≠ 0x74 := (hne 0x74).resolve_left (by decide)
  have hf : b ≠ 0x66 := (hne 0x66).resolve_left (by decide)
  have hnodes : k ≠ bounds.nodes := by omega
  rw [value]
  simp only [node, wp_bind, wp_get, wp_ite, wp_modify, wp_byteAt]
  simp [not_lt.mpr hd, hnodes, hquote, hn, ht, hf, h]
  intro hminus hdigit
  rcases hb with hb | hb
  · exact absurd hb hminus
  · exact absurd (hb.symm.trans hdigit) (by decide)

theorem wp_value_word {word : Bytes} (hd : d ≤ bounds.depth) (hk : k + 1 ≤ bounds.nodes)
    (hword : (word = nullWord ∧ v = .null) ∨ (word = trueWord ∧ v = .bool true) ∨
      (word = falseWord ∧ v = .bool false)) (hQ : Q v ⟨rest, k + 1⟩) :
    wp (value m read bounds (fuel + 1) d) Q E ⟨word ++ rest, k⟩ := by
  have hnodes : k ≠ bounds.nodes := by omega
  rw [value]
  simp only [node, wp_bind, wp_get, wp_ite, wp_modify, wp_byteAt]
  rcases hword with ⟨rfl, rfl⟩ | ⟨rfl, rfl⟩ | ⟨rfl, rfl⟩ <;>
    simp [not_lt.mpr hd, hnodes, quote, hQ]

theorem wp_value_string {raw out : Bytes} (hd : d ≤ bounds.depth) (hk : k + 1 ≤ bounds.nodes)
    (h : Str raw out) (hQ : Q (.string out) ⟨rest, k + 1⟩) :
    wp (value m read bounds (fuel + 1) d) Q E ⟨raw ++ rest, k⟩ := by
  have hnodes : k ≠ bounds.nodes := by omega
  have hcall := string_complete m (Q := fun out t => Q (.string out) t) (E := E) h rest hQ
  cases h with
  | mk hchars hutf8 =>
  rw [value]
  simp only [node, wp_bind, wp_get, wp_ite, wp_modify, wp_byteAt]
  simpa [not_lt.mpr hd, hnodes] using hcall

theorem wp_value_array (hd : d ≤ bounds.depth) (hk : k + 1 ≤ bounds.nodes)
    (h : wp (do
        skip
        if ← take closeBracket then return .array []
        else elements m read bounds fuel (d + 1) []) Q E ⟨rest, k + 1⟩) :
    wp (value m read bounds (fuel + 1) d) Q E ⟨openBracket :: rest, k⟩ := by
  have hnodes : k ≠ bounds.nodes := by omega
  rw [value]
  simp only [node, wp_bind, wp_get, wp_ite, wp_modify, wp_byteAt] at h ⊢
  simpa [not_lt.mpr hd, hnodes, isDigit, quote, minus, openBracket, openBrace] using h

theorem wp_value_object (hd : d ≤ bounds.depth) (hk : k + 1 ≤ bounds.nodes)
    (h : wp (do
        skip
        if ← take closeBrace then return .object []
        else members m read bounds fuel (d + 1) []) Q E ⟨rest, k + 1⟩) :
    wp (value m read bounds (fuel + 1) d) Q E ⟨openBrace :: rest, k⟩ := by
  have hnodes : k ≠ bounds.nodes := by omega
  rw [value]
  simp only [node, wp_bind, wp_get, wp_ite, wp_modify, wp_byteAt] at h ⊢
  simpa [not_lt.mpr hd, hnodes, isDigit, quote, minus, openBracket, openBrace] using h

theorem elements_round {items : List (JsonValue F)} {e : Element F} {b : UInt8}
    (he : Completes (ε := ε) m read bounds d e.raw e.value e.nodes) (hafter : Blank e.after)
    (hfuel : 2 * e.raw.length + 1 ≤ fuel) (hk : k + e.nodes ≤ bounds.nodes)
    (hb : b = closeBracket ∨ b = comma)
    (hlast : b = closeBracket → Q (.array (items ++ [e.value])) ⟨tail, k + e.nodes⟩)
    (hnext : b = comma → wp (elements m read bounds fuel d (items ++ [e.value])) Q E
      ⟨tail.dropWhile isBlank, k + e.nodes⟩) :
    wp (elements m read bounds (fuel + 1) d items) Q E ⟨e.raw ++ (e.after ++ b :: tail), k⟩ := by
  rw [elements, wp_bind]
  have hdelimiter : IsDelimiter b := hb.elim (fun h => .inr (.inl h)) .inl
  refine he fuel _ k _ E hfuel (ends_blank hafter (hdelimiter.ends tail)) hk ?_
  have hskip := hdelimiter.dropWhile hafter tail
  simp only [wp_bind, wp_skip, wp_take, wp_ite, wp_pure, hskip]
  rcases hb with rfl | rfl
  · simpa using hlast rfl
  · simpa [comma, closeBracket] using hnext rfl

theorem elements_complete : ∀ (es : List (Element F)), es ≠ [] → (∀ e ∈ es, e.Blanks) →
    (∀ e ∈ es, Text read bounds.depth d e.raw e.value e.nodes) →
    (∀ e ∈ es, Completes (ε := ε) m read bounds d e.raw e.value e.nodes) →
    ∀ (fuel k : Nat) (items : List (JsonValue F)),
      2 * (commaSeparated (es.map text)).length + 2 ≤ fuel →
      k + (es.map (·.nodes)).sum ≤ bounds.nodes →
      Q (.array (items ++ es.map (·.value))) ⟨rest, k + (es.map (·.nodes)).sum⟩ →
      wp (elements m read bounds fuel d items) Q E
        ⟨(commaSeparated (es.map text) ++ closeBracket :: rest).dropWhile isBlank, k⟩ := by
  intro es
  induction es with
  | nil => exact fun h => absurd rfl h
  | cons e es ih =>
    intro _ hblanks htexts hvalues fuel k items hfuel hk hQ
    rw [forall_mem_cons] at hblanks htexts hvalues
    obtain ⟨fuel, rfl⟩ : ∃ n, fuel = n + 1 := ⟨fuel - 1, by omega⟩
    have hskip : ∀ tail, (e.text ++ tail).dropWhile isBlank = e.raw ++ (e.after ++ tail) := fun tail => by
      rw [text, append_assoc, append_assoc]
      exact dropWhile_blank hblanks.1.1 (htexts.1.endsBlank _)
    cases es with
    | nil =>
      simp only [map_cons, map_nil, commaSeparated, sum_cons, sum_nil,
        Nat.add_zero] at hfuel hk hQ ⊢
      rw [hskip]
      simp only [text, length_append] at hfuel
      exact elements_round hvalues.1 hblanks.1.2 (by omega) hk (.inl rfl) (fun _ => hQ)
        fun h => absurd h (by decide)
    | cons e' es =>
      simp only [map_cons, commaSeparated_cons, sum_cons] at hfuel hk hQ
      rw [map_cons, map_cons, commaSeparated_cons, append_assoc, hskip]
      simp only [length_append, length_cons, text] at hfuel
      refine elements_round hvalues.1 hblanks.1.2 (by omega) (by omega) (.inr rfl)
        (fun h => absurd h (by decide)) fun _ => ?_
      refine ih (cons_ne_nil _ _) hblanks.2 htexts.2 hvalues.2 fuel (k + e.nodes)
        (items ++ [e.value]) ?_ ?_ ?_
      · simp only [map_cons, text]
        omega
      · simp only [map_cons, sum_cons]
        omega
      · simpa [Nat.add_assoc] using hQ

theorem dropWhile_elements {es : List (Element F)} (hne : es ≠ []) (hblanks : ∀ e ∈ es, e.Blanks)
    (htexts : ∀ e ∈ es, Text read bounds.depth d e.raw e.value e.nodes) (tail : Bytes) :
    ((commaSeparated (es.map Element.text) ++ tail).dropWhile isBlank).head? ≠ some closeBracket := by
  obtain ⟨e, es, rfl⟩ := exists_cons_of_ne_nil hne
  obtain ⟨b, tail', hraw, hb, hopen⟩ := (htexts e mem_cons_self).head
  have hsplit : ∃ tail'', commaSeparated ((e :: es).map text) ++ tail = e.before ++ b :: tail'' := by
    cases es with
    | nil => exact ⟨tail' ++ (e.after ++ tail), by simp [commaSeparated, text, hraw]⟩
    | cons e' es => exact ⟨_, by simp [commaSeparated, text, hraw]; rfl⟩
  obtain ⟨tail'', hsplit⟩ := hsplit
  rw [hsplit, dropWhile_blank (hblanks e mem_cons_self).1 (endsBlank_cons hb)]
  exact fun h => hopen (Option.some.inj h)

theorem dropWhile_members {ms : List (Member F)} (hne : ms ≠ []) (hblanks : ∀ e ∈ ms, e.Blanks)
    (hkeys : ∀ e ∈ ms, Str e.keyRaw e.key) (tail : Bytes) :
    ((commaSeparated (ms.map Member.text) ++ tail).dropWhile isBlank).head? ≠ some closeBrace := by
  obtain ⟨e, ms, rfl⟩ := exists_cons_of_ne_nil hne
  obtain ⟨tail', hraw⟩ := (hkeys e mem_cons_self).head
  have hsplit : ∃ tail'', commaSeparated ((e :: ms).map Member.text) ++ tail = e.lead ++ quote :: tail'' := by
    cases ms with
    | nil => exact ⟨_, by simp [commaSeparated, Member.text, hraw]; rfl⟩
    | cons e' ms => exact ⟨_, by simp [commaSeparated, Member.text, hraw]; rfl⟩
  obtain ⟨tail'', hsplit⟩ := hsplit
  rw [hsplit, dropWhile_blank (hblanks e mem_cons_self).1 (endsBlank_cons rfl)]
  exact fun h => absurd (Option.some.inj h) (by decide)

theorem members_round {entries : List (Bytes × JsonValue F)} {e : Member F} {b : UInt8}
    (he : Completes (ε := ε) m read bounds d e.raw e.value e.nodes) (hblanks : e.Blanks)
    (hkey : Str e.keyRaw e.key) (htext : Text read bounds.depth d e.raw e.value e.nodes)
    (hnew : e.key ∉ entries.map (·.1)) (hfuel : 2 * e.raw.length + 1 ≤ fuel)
    (hk : k + e.nodes ≤ bounds.nodes) (hb : b = closeBrace ∨ b = comma)
    (hlast : b = closeBrace → Q (.object (insertEntry e.key e.value entries)) ⟨tail, k + e.nodes⟩)
    (hnext : b = comma → wp (members m read bounds fuel d (insertEntry e.key e.value entries)) Q E
      ⟨tail.dropWhile isBlank, k + e.nodes⟩) :
    wp (members m read bounds (fuel + 1) d entries) Q E
      ⟨e.keyRaw ++ (e.keyAfter ++ colon :: (e.before ++ (e.raw ++ (e.after ++ b :: tail)))), k⟩ := by
  have hdelimiter : IsDelimiter b := hb.elim (fun h => .inr (.inr h)) .inl
  have hskip := hdelimiter.dropWhile hblanks.2.2.2 tail
  have hcolon : ∀ tail', (e.keyAfter ++ colon :: tail').dropWhile isBlank = colon :: tail' := fun _ =>
    dropWhile_blank hblanks.2.1 (endsBlank_cons rfl)
  have hbefore : (e.before ++ (e.raw ++ (e.after ++ b :: tail))).dropWhile isBlank =
      e.raw ++ (e.after ++ b :: tail) := dropWhile_blank hblanks.2.2.1 (htext.endsBlank _)
  obtain ⟨keyTail, hhead⟩ := hkey.head
  have hne : e.keyRaw ++ (e.keyAfter ++ colon :: (e.before ++ (e.raw ++ (e.after ++ b :: tail)))) ≠ [] := by
    simp [hhead]
  have hquote : (e.keyRaw ++ (e.keyAfter ++ colon :: (e.before ++ (e.raw ++ (e.after ++ b :: tail)))))[0]? =
      some quote := by simp [hhead]
  rw [members]
  simp only [wp_bind, wp_get, wp_ite, wp_byteAt, hquote]
  refine ⟨fun h => absurd h hne, fun _ => ⟨?_, by rintro ⟨⟩⟩⟩
  rintro c hc
  obtain rfl : quote = c := Option.some.inj hc
  refine ⟨fun h => absurd rfl h, fun _ => string_complete m hkey _ ?_⟩
  simp only [wp_skip, wp_take, hcolon]
  refine ⟨?_, fun h => absurd rfl h⟩
  rintro rest' hrest
  obtain rfl := tail_eq_of_cons_eq hrest
  refine ⟨fun _ => ?_, fun h => absurd trivial h⟩
  rw [hbefore]
  refine he fuel _ k _ E hfuel (ends_blank hblanks.2.2.2 (hdelimiter.ends tail)) hk ?_
  rw [emplace, if_neg hnew]
  simp only [wp_bind, wp_skip, wp_take, wp_ite, wp_pure, hskip]
  rcases hb with rfl | rfl
  · simpa using hlast rfl
  · simpa [comma, closeBrace] using hnext rfl

theorem members_complete : ∀ (ms : List (Member F)), ms ≠ [] → (∀ e ∈ ms, e.Blanks) →
    (∀ e ∈ ms, Str e.keyRaw e.key) → (ms.map (·.key)).Nodup →
    (∀ e ∈ ms, Text read bounds.depth d e.raw e.value e.nodes) →
    (∀ e ∈ ms, Completes (ε := ε) m read bounds d e.raw e.value e.nodes) →
    ∀ (fuel k : Nat) (entries : List (Bytes × JsonValue F)), (∀ e ∈ ms, e.key ∉ entries.map (·.1)) →
      2 * (commaSeparated (ms.map Member.text)).length + 2 ≤ fuel →
      k + (ms.map (·.nodes)).sum ≤ bounds.nodes →
      Q (.object (insertAll (ms.map Member.entry) entries)) ⟨rest, k + (ms.map (·.nodes)).sum⟩ →
      wp (members m read bounds fuel d entries) Q E
        ⟨(commaSeparated (ms.map Member.text) ++ closeBrace :: rest).dropWhile isBlank, k⟩ := by
  intro ms
  induction ms with
  | nil => exact fun h => absurd rfl h
  | cons e ms ih =>
    intro _ hblanks hkeys hnodup htexts hvalues fuel k entries hnew hfuel hk hQ
    rw [forall_mem_cons] at hblanks hkeys htexts hvalues hnew
    rw [map_cons, nodup_cons] at hnodup
    obtain ⟨fuel, rfl⟩ : ∃ n, fuel = n + 1 := ⟨fuel - 1, by omega⟩
    have hskip : ∀ tail, (e.text ++ tail).dropWhile isBlank =
        e.keyRaw ++ (e.keyAfter ++ colon :: (e.before ++ (e.raw ++ (e.after ++ tail)))) := fun tail => by
      obtain ⟨keyTail, hhead⟩ := hkeys.1.head
      have htext : e.text ++ tail =
          e.lead ++ (e.keyRaw ++ (e.keyAfter ++ colon :: (e.before ++ (e.raw ++ (e.after ++ tail))))) := by
        simp [Member.text, text]
      rw [htext]
      exact dropWhile_blank hblanks.1.1 (by rw [hhead]; exact endsBlank_cons rfl)
    cases ms with
    | nil =>
      simp only [map_cons, map_nil, commaSeparated, sum_cons, sum_nil,
        Nat.add_zero] at hfuel hk hQ ⊢
      rw [hskip]
      simp only [Member.text, text, length_append, length_cons] at hfuel
      exact members_round hvalues.1 hblanks.1 hkeys.1 htexts.1 hnew.1 (by omega) hk (.inl rfl)
        (fun _ => hQ) fun h => absurd h (by decide)
    | cons e' ms =>
      simp only [map_cons, commaSeparated_cons, sum_cons] at hfuel hk hQ
      rw [map_cons, map_cons, commaSeparated_cons, append_assoc, cons_append, hskip]
      simp only [length_append, length_cons, Member.text, text] at hfuel
      refine members_round hvalues.1 hblanks.1 hkeys.1 htexts.1 hnew.1 (by omega) (by omega) (.inr rfl)
        (fun h => absurd h (by decide)) fun _ => ?_
      refine ih (cons_ne_nil _ _) hblanks.2 hkeys.2 hnodup.2 htexts.2 hvalues.2 fuel (k + e.nodes)
        (insertEntry e.key e.value entries) ?_ ?_ ?_ ?_
      · intro e'' hmem hin
        rcases mem_insertEntry.mp hin with heq | hin
        · exact hnodup.1 (heq ▸ mem_map_of_mem hmem)
        · exact hnew.2 e'' hmem hin
      · simp only [map_cons, Member.text, text]
        omega
      · simp only [map_cons, sum_cons]
        omega
      · simpa [Nat.add_assoc, insertAll, Member.entry] using hQ

theorem value_complete (m : Messages ε) {n : Nat} {raw : Bytes}
    (h : Text read bounds.depth d raw v n) : Completes (ε := ε) m read bounds d raw v n := by
  induction h with
  | null hd =>
    intro fuel rest k Q E hfuel hrest hk hQ
    obtain ⟨fuel, rfl⟩ : ∃ n, fuel = n + 1 := ⟨fuel - 1, by omega⟩
    exact wp_value_word hd hk (.inl ⟨rfl, rfl⟩) hQ
  | true hd =>
    intro fuel rest k Q E hfuel hrest hk hQ
    obtain ⟨fuel, rfl⟩ : ∃ n, fuel = n + 1 := ⟨fuel - 1, by omega⟩
    exact wp_value_word hd hk (.inr (.inl ⟨rfl, rfl⟩)) hQ
  | false hd =>
    intro fuel rest k Q E hfuel hrest hk hQ
    obtain ⟨fuel, rfl⟩ : ∃ n, fuel = n + 1 := ⟨fuel - 1, by omega⟩
    exact wp_value_word hd hk (.inr (.inr ⟨rfl, rfl⟩)) hQ
  | number hd h =>
    intro fuel rest k Q E hfuel hrest hk hQ
    obtain ⟨fuel, rfl⟩ : ∃ n, fuel = n + 1 := ⟨fuel - 1, by omega⟩
    obtain ⟨b, tail, rfl, hb⟩ := h.head
    rw [cons_append]
    refine wp_value_number hd hk hb ?_
    rw [← cons_append]
    exact number_complete m read h hrest hQ
  | string hd h =>
    intro fuel rest k Q E hfuel hrest hk hQ
    obtain ⟨fuel, rfl⟩ : ∃ n, fuel = n + 1 := ⟨fuel - 1, by omega⟩
    exact wp_value_string hd hk h hQ
  | @emptyArray d w hd hw =>
    intro fuel rest k Q E hfuel hrest hk hQ
    obtain ⟨fuel, rfl⟩ : ∃ n, fuel = n + 1 := ⟨fuel - 1, by omega⟩
    rw [cons_append, append_assoc]
    refine wp_value_array hd hk ?_
    have hskip : (w ++ closeBracket :: rest).dropWhile isBlank = closeBracket :: rest :=
      dropWhile_blank hw (endsBlank_cons rfl)
    simpa [hskip] using hQ
  | @array d es hd hne hblanks htexts ih =>
    intro fuel rest k Q E hfuel hrest hk hQ
    obtain ⟨fuel, rfl⟩ : ∃ n, fuel = n + 1 := ⟨fuel - 1, by omega⟩
    rw [cons_append, append_assoc]
    refine wp_value_array hd (by omega) ?_
    simp only [length_cons, length_append] at hfuel
    have hsum : k + 1 + (es.map (·.nodes)).sum = k + ((es.map (·.nodes)).sum + 1) := by omega
    have hcall := elements_complete (E := E) es hne hblanks htexts ih fuel (k + 1) [] (by omega) (by omega)
      (by rw [hsum]; exact hQ)
    -- an array with elements does not begin with the closing bracket
    have hopen := dropWhile_elements hne hblanks htexts (closeBracket :: rest)
    simp only [wp_bind, wp_skip, wp_take, wp_ite, wp_pure]
    refine ⟨fun tail htail => absurd ?_ hopen, fun _ => ⟨by rintro ⟨⟩, fun _ => hcall⟩⟩
    exact (congrArg List.head? htail).trans rfl
  | @emptyObject d w hd hw =>
    intro fuel rest k Q E hfuel hrest hk hQ
    obtain ⟨fuel, rfl⟩ : ∃ n, fuel = n + 1 := ⟨fuel - 1, by omega⟩
    rw [cons_append, append_assoc]
    refine wp_value_object hd hk ?_
    have hskip : (w ++ closeBrace :: rest).dropWhile isBlank = closeBrace :: rest :=
      dropWhile_blank hw (endsBlank_cons rfl)
    simpa [hskip] using hQ
  | @object d ms hd hne hblanks hkeys hdistinct htexts ih =>
    intro fuel rest k Q E hfuel hrest hk hQ
    obtain ⟨fuel, rfl⟩ : ∃ n, fuel = n + 1 := ⟨fuel - 1, by omega⟩
    rw [cons_append, append_assoc]
    refine wp_value_object hd (by omega) ?_
    simp only [length_cons, length_append] at hfuel
    have hsum : k + 1 + (ms.map (·.nodes)).sum = k + ((ms.map (·.nodes)).sum + 1) := by omega
    have hcall := members_complete (E := E) ms hne hblanks hkeys hdistinct htexts ih fuel (k + 1) [] (by simp)
      (by omega) (by omega) (by rw [hsum]; exact hQ)
    have hopen := dropWhile_members hne hblanks hkeys (closeBrace :: rest)
    simp only [wp_bind, wp_skip, wp_take, wp_ite, wp_pure]
    refine ⟨fun tail htail => absurd ?_ hopen, fun _ => ⟨by rintro ⟨⟩, fun _ => hcall⟩⟩
    exact (congrArg List.head? htail).trans rfl

end Complete

end Bravo.Strict
