import TestDispatch.Json.Decode
import TestDispatch.Proofs.Json.ReadObject
import TestDispatch.Proofs.Json.Write
/-! Decoding reads back what the writer writes: `Reads` says a reader takes a value from its
text wherever the text stands, and stops after it. -/
namespace TestDispatch.Json

open Text.Utf8

/-- The reader `read` takes `x` from `text` wherever `text` stands before `rest`, and stops where
`rest` begins. -/
def Reads {α : Type} (src : ByteArray) (read : Nat → Step α) (text : List Char) (x : α)
    (rest : List Char) : Prop :=
  ∀ i, bytesFrom src i = encode (text ++ rest) → ∃ j, read i = .ok (x, j) ∧ bytesFrom src j = encode rest

section Ends

variable {src : ByteArray} {i : Nat} {w r : List Char}

/-- A text an element of a sequence may start with: its first character is one byte, neither
white space nor the closing bracket. -/
def OpensElement (cs : List Char) : Prop :=
  ∃ c t, cs = c :: t ∧ isBlank c = false ∧ c.toNat < 0x80 ∧ c ≠ ']'

theorem nextElement_close {first : Bool} (hw : Blank w) (h : bytesFrom src i = encode (w ++ ']' :: r)) :
    nextElement src first i = .ok none := by
  have hb := skipSpace_blank hw (by decide) h
  rw [encode_ascii (by decide)] at hb
  simp only [nextElement, getElem?_of_bytesFrom hb]
  rfl

theorem nextElement_complete {first : Bool} {l cs : List Char} (hl : KeyLead first l)
    (ho : OpensElement cs) (h : bytesFrom src i = encode (l ++ cs ++ r)) :
    ∃ j, nextElement src first i = .ok (some j) ∧ bytesFrom src j = encode (cs ++ r) := by
  obtain ⟨c, t, rfl, hc, hlt, hne⟩ := ho
  rw [List.append_assoc, List.cons_append] at h
  rw [List.cons_append]
  have hbyte {k : Nat} (hk : bytesFrom src k = encode (c :: (t ++ r))) :
      ∃ b, src[k]? = some b ∧ b ≠ 0x5D := by
    rw [encode_ascii hlt] at hk
    exact ⟨_, getElem?_of_bytesFrom hk, fun e => hne (eq_of_ascii_byte hlt (by decide) e)⟩
  cases first with
  | true =>
    have hb := skipSpace_blank hl hc h
    obtain ⟨b, hb', hne'⟩ := hbyte hb
    refine ⟨_, ?_, hb⟩
    unfold nextElement
    split <;> simp_all
  | false =>
    obtain ⟨w₁, w₂, rfl, hw₁, hw₂⟩ := hl
    rw [List.append_assoc, List.cons_append] at h
    have hcomma := skipSpace_blank hw₁ (by decide) h
    rw [encode_ascii (by decide)] at hcomma
    have hb := skipSpace_blank hw₂ hc (bytesFrom_succ hcomma)
    obtain ⟨b, hb', hne'⟩ := hbyte hb
    refine ⟨_, ?_, hb⟩
    unfold nextElement
    simp only [getElem?_of_bytesFrom hcomma]
    split <;> simp_all

theorem endSeq_close (hw : Blank w) (h : bytesFrom src i = encode (w ++ ']' :: r)) :
    ∃ j, endSeq src i = .ok j ∧ bytesFrom src j = encode r := by
  have hb := skipSpace_blank hw (by decide) h
  rw [encode_ascii (by decide)] at hb
  refine ⟨_, ?_, bytesFrom_succ hb⟩
  simp only [endSeq, getElem?_of_bytesFrom hb]
  rfl

theorem endMap_close (hw : Blank w) (h : bytesFrom src i = encode (w ++ '}' :: r)) :
    ∃ j, endMap src i = .ok j ∧ bytesFrom src j = encode r := by
  have hb := skipSpace_blank hw (by decide) h
  rw [encode_ascii (by decide)] at hb
  refine ⟨_, ?_, bytesFrom_succ hb⟩
  simp only [endMap, getElem?_of_bytesFrom hb]
  rfl

end Ends

section Scalars

variable {src : ByteArray} {rest : List Char}

theorem reads_quote (s : String) (rest : List Char) :
    Reads src (stringValue src) (quote s).toList s rest := fun _ h =>
  stringValue_complete blank_nil (stringLit_quote s) h

theorem isBlank_of_digit {c : Char} (h : 48 ≤ c.toNat) : isBlank c = false := by
  cases hb : isBlank c
  · rfl
  · simp only [isBlank, Bool.or_eq_true, decide_eq_true_eq] at hb
    rcases hb with ((rfl | rfl) | rfl) | rfl <;> revert h <;> decide

theorem toString_digits (n : Nat) : ∀ c ∈ (toString n).toList, 48 ≤ c.toNat ∧ c.toNat ≤ 57 := by
  intro c hc
  have hdigits : (toString n).toList = Nat.toDigits 10 n := by simp [toString, Nat.repr]
  rw [hdigits] at hc
  exact toNat_of_isDigit (Nat.isDigit_of_mem_toDigits (by decide) (by decide) hc)

/-- A number written in decimal is read back as an unsigned 64-bit number while it fits, up to a
character no number goes on with. -/
theorem reads_toString {n : Nat} {c : Char} (hn : n ≤ u64Max) (hc : endsNumber c = true)
    (r : List Char) : Reads src (u64Value src) (toString n).toList n (c :: r) := by
  intro i h
  obtain ⟨d, ds, hds⟩ : ∃ d ds, (toString n).toList = d :: ds :=
    List.exists_cons_of_ne_nil (by simp [toString, Nat.repr, Nat.toDigits_ne_nil])
  have hdig := toString_digits n
  have hd := hdig d (hds ▸ List.mem_cons_self ..)
  have hfirst : bytesFrom src i = encode (d :: (ds ++ c :: r)) := by
    rw [h, hds, List.cons_append]
  have hsp := skipSpace_nonblank (isBlank_of_digit hd.1) hfirst
  rw [encode_ascii (by omega)] at hfirst
  obtain ⟨hisDigit, -⟩ := isDigit_byte hd
  have hnum := number_toString hn hc h
  refine ⟨i + (toString n).length, ?_, ?_⟩
  · unfold u64Value
    simp only [hsp, getElem?_of_bytesFrom hfirst]
    split
    · rename_i heq
      cases heq
    · -- a minus sign is no digit
      rename_i heq
      have := eq_of_ascii_byte (d := '-') (by omega) (by decide) (Option.some.inj heq)
      subst this
      simp at hd
    · rename_i heq
      cases heq
      rw [if_pos hisDigit, hnum]
  · have hascii : ∀ x ∈ (toString n).toList, x.toNat < 0x80 := fun x hx => by
      have := hdig x hx
      omega
    have := bytesFrom_add (encode (toString n).toList) (r := encode (c :: r))
      (by rw [h, encode_append])
    rwa [length_encode_ascii hascii, String.length_toList] at this

end Scalars

section Containers

variable {α β : Type} {src : ByteArray} {rest : List Char}

theorem reads_knownField {read : Nat → Step β} {name : String} {text : List Char} {x : β}
    (hr : Reads src read text x rest) : Reads src (knownField src name false read) (':' :: text) x rest := by
  intro i h
  obtain ⟨j, hc, hj⟩ := colon_complete blank_nil h
  obtain ⟨k, hk, hk'⟩ := hr j hj
  refine ⟨k, ?_, hk'⟩
  simp only [knownField, Bool.false_eq_true, if_false, hc, Except.ok_bind, hk]

theorem reads_structValue_object {ofSeq ofMap : Nat → Step α} {name : String} {text : List Char}
    {x : α} (hm : Reads src ofMap text x ('}' :: rest)) :
    Reads src (structValue src name ofSeq ofMap) ('{' :: (text ++ ['}'])) x rest := by
  intro i h
  rw [List.cons_append, List.append_assoc, List.singleton_append] at h
  have hsp := skipSpace_nonblank (by decide) h
  rw [encode_ascii (by decide)] at h
  obtain ⟨j, hj, hj'⟩ := hm _ (bytesFrom_succ h)
  obtain ⟨k, hk, hk'⟩ := endMap_close blank_nil hj'
  refine ⟨k, ?_, hk'⟩
  simp only [structValue, hsp, getElem?_of_bytesFrom h]
  simp [hj, hk]

/-- A document is its one value, with nothing after it. -/
theorem document_of_reads {value : Nat → Step α} {text : List Char} {x : α}
    (hr : Reads src value text x []) (h : bytesFrom src 0 = encode text) :
    document src value = .ok x := by
  obtain ⟨j, hv, hj⟩ := hr 0 (by rw [List.append_nil]; exact h)
  have hend : src.size ≤ skipSpace src j := (size_le_skipSpace_iff hj).mpr blank_nil
  simp only [document, hv, Except.ok_bind]
  rw [if_neg (Nat.not_lt.mpr hend)]
  rfl

end Containers

section Sequences

variable {α : Type} {src : ByteArray} {elem : Nat → Step α} {fuel : Nat} {first : Bool}
  {acc : List α} {i : Nat}

/-- The element reader takes `x` back from its text, which opens like an element, whether a comma
or the closing bracket follows it. -/
def ReadsElement (src : ByteArray) (elem : Nat → Step α) (text : List Char) (x : α) : Prop :=
  OpensElement text ∧ ∀ c r, (c = ',' ∨ c = ']') → Reads src elem text x (c :: r)

theorem seqElements_close (hn : nextElement src first i = .ok none) :
    seqElements src elem (fuel + 1) first acc i = .ok (acc.reverse, i) := by
  simp only [seqElements, hn, Except.ok_bind]
  rfl

theorem seqElements_elem {j k : Nat} {x : α} (hn : nextElement src first i = .ok (some j))
    (he : elem j = .ok (x, k)) :
    seqElements src elem (fuel + 1) first acc i = seqElements src elem fuel false (x :: acc) k := by
  simp only [seqElements, hn, he, Except.ok_bind]

theorem after_element (xs : List α) (text : α → List Char) (r : List Char) :
    ∃ c r', (c = ',' ∨ c = ']') ∧ xs.flatMap (fun x => ',' :: text x) ++ ']' :: r = c :: r' := by
  cases xs with
  | nil => exact ⟨']', r, .inr rfl, rfl⟩
  | cons x xs => exact ⟨',', text x ++ (xs.flatMap (fun x => ',' :: text x) ++ ']' :: r), .inl rfl,
      by simp⟩

theorem seqElements_more {text : α → List Char} :
    ∀ (xs acc : List α) {fuel i r}, (∀ x ∈ xs, ReadsElement src elem (text x) x) →
      xs.length < fuel →
      bytesFrom src i = encode (xs.flatMap (fun x => ',' :: text x) ++ ']' :: r) →
      ∃ j, seqElements src elem fuel false acc i = .ok (acc.reverse ++ xs, j) ∧
        bytesFrom src j = encode (']' :: r)
  | [], acc, fuel + 1, i, r, _, _, h =>
    ⟨i, by rw [seqElements_close (nextElement_close blank_nil h), List.append_nil], h⟩
  | x :: xs, acc, fuel + 1, i, r, hx, hlen, h => by
    obtain ⟨hopen, hread⟩ := hx x (List.mem_cons_self ..)
    obtain ⟨c, r', hc, hrest⟩ := after_element xs text r
    have h' : bytesFrom src i = encode ([','] ++ text x ++ (c :: r')) := by
      rw [h, ← hrest]
      simp
    obtain ⟨j, hn, hj⟩ :=
      nextElement_complete (show KeyLead false [','] from ⟨[], [], rfl, blank_nil, blank_nil⟩) hopen h'
    obtain ⟨k, he, hk⟩ := hread c r' hc j hj
    rw [← hrest] at hk
    obtain ⟨l, hl, hl'⟩ := seqElements_more xs (x :: acc)
      (fun y hy => hx y (List.mem_cons_of_mem _ hy)) (by simp at hlen; omega) hk
    refine ⟨l, ?_, hl'⟩
    rw [seqElements_elem hn he, hl]
    simp

theorem intercalate_comma (text : α → List Char) (x : α) (xs : List α) :
    [','].intercalate ((x :: xs).map text) = text x ++ xs.flatMap (fun y => ',' :: text y) := by
  induction xs generalizing x with
  | nil => simp
  | cons y ys ih =>
    rw [List.map_cons, List.map_cons, List.intercalate_cons_cons, ← List.map_cons, ih y]
    simp

/-- The elements of a sequence, separated by commas, are read in order from the first. -/
theorem seqElements_complete {text : α → List Char} {xs : List α} {r : List Char}
    (hx : ∀ x ∈ xs, ReadsElement src elem (text x) x) (hlen : xs.length < fuel)
    (h : bytesFrom src i = encode ([','].intercalate (xs.map text) ++ ']' :: r)) :
    ∃ j, seqElements src elem fuel true [] i = .ok (xs, j) ∧ bytesFrom src j = encode (']' :: r) := by
  obtain ⟨fuel, rfl⟩ := Nat.exists_eq_succ_of_ne_zero (Nat.ne_zero_of_lt hlen)
  cases xs with
  | nil =>
    exact ⟨i, seqElements_close (nextElement_close blank_nil h), h⟩
  | cons x xs =>
    obtain ⟨hopen, hread⟩ := hx x (List.mem_cons_self ..)
    obtain ⟨c, r', hc, hrest⟩ := after_element xs text r
    rw [intercalate_comma, List.append_assoc, hrest] at h
    obtain ⟨j, hn, hj⟩ := nextElement_complete (show KeyLead true [] from blank_nil) hopen h
    obtain ⟨k, he, hk⟩ := hread c r' hc j hj
    rw [← hrest] at hk
    obtain ⟨l, hl, hl'⟩ := seqElements_more xs [x]
      (fun y hy => hx y (List.mem_cons_of_mem _ hy)) (by simp at hlen; omega) hk
    refine ⟨l, ?_, hl'⟩
    rw [seqElements_elem hn he, hl]
    simp

theorem length_le_flatMap_comma (text : α → List Char) (xs : List α) :
    xs.length ≤ (xs.flatMap (fun y => ',' :: text y)).length := by
  induction xs with
  | nil => simp
  | cons y ys ih =>
    simp only [List.flatMap_cons, List.length_append, List.length_cons]
    omega

theorem length_le_intercalate {text : α → List Char} {xs : List α}
    (hx : ∀ x ∈ xs, ReadsElement src elem (text x) x) :
    xs.length ≤ ([','].intercalate (xs.map text)).length := by
  cases xs with
  | nil => simp
  | cons x xs =>
    obtain ⟨c, t, hct, -⟩ := (hx x (List.mem_cons_self ..)).1
    have := length_le_flatMap_comma text xs
    rw [intercalate_comma, hct]
    simp only [List.length_append, List.length_cons]
    omega

/-- A sequence is read element by element between its brackets. -/
theorem reads_seqValue {text : α → List Char} {xs : List α} {rest : List Char}
    (hx : ∀ x ∈ xs, ReadsElement src elem (text x) x) :
    Reads src (seqValue src elem) ('[' :: ([','].intercalate (xs.map text) ++ [']'])) xs rest := by
  intro i h
  -- the document holds the elements, so its size is fuel enough
  have hlen : xs.length < src.size + 1 := by
    have hchars : ('[' :: ([','].intercalate (xs.map text) ++ [']']) ++ rest).length ≤
        src.size - i := by
      rw [← length_bytesFrom, h]
      exact length_le_length_encode _
    have := length_le_intercalate hx
    simp only [List.cons_append, List.length_cons, List.length_append] at hchars
    omega
  rw [List.cons_append, List.append_assoc, List.singleton_append] at h
  have hsp := skipSpace_nonblank (by decide) h
  rw [encode_ascii (by decide)] at h
  obtain ⟨j, hj, hj'⟩ := seqElements_complete hx hlen (bytesFrom_succ h)
  obtain ⟨k, hk, hk'⟩ := endSeq_close blank_nil hj'
  refine ⟨k, ?_, hk'⟩
  simp only [seqValue, hsp, getElem?_of_bytesFrom h]
  simp [hj, hk]

end Sequences

section Members

variable {σ : Type} {src : ByteArray} {entry : σ → String → Nat → Step σ} {first : Bool} {i : Nat}

theorem visitMap_quote (fuel : Nat) {l text rest : List Char} {key : String} {st st' : σ} (hl : KeyLead first l)
    (he : Reads src (entry st key) text st' rest)
    (h : bytesFrom src i = encode (l ++ (quote key).toList ++ text ++ rest)) :
    ∃ k, bytesFrom src k = encode rest ∧
      visitMap src entry (fuel + 1) first st i = visitMap src entry fuel false st' k := by
  obtain ⟨body, hq, hbody⟩ := stringLit_quote key
  rw [hq] at h
  simp only [List.append_assoc, List.cons_append] at h
  obtain ⟨k, hk, hk'⟩ := nextKey_complete hl h
  obtain ⟨j, hkey, hj⟩ := stringAt_complete hbody hk'
  rw [String.ofList_toList] at hkey
  obtain ⟨m, hm, hm'⟩ := he j hj
  exact ⟨m, hm', visitMap_key hk hkey hm⟩

theorem visitMap_end {fuel : Nat} {r : List Char} {st : σ} (h : bytesFrom src i = encode ('}' :: r)) :
    visitMap src entry (fuel + 1) first st i = .ok (st, i) := by
  rw [visitMap_close (nextKey_close blank_nil h).1, skipSpace_nonblank (by decide) h]

end Members

end TestDispatch.Json
