import TestDispatch.Proofs.Classfile.Layout
/-! A class file is read by its prefix: every header reader takes bytes from the front and looks
no further (`Reader.Exact`), so an answer other than `truncated` survives any suffix. -/
namespace TestDispatch.Classfile

variable {α β : Type}

theorem take_append_of_length_le {u v : List UInt8} {k : Nat} (hk : u.length ≤ k) :
    (u ++ v).take k = u ++ v.take (k - u.length) := by
  rw [List.take_append, List.take_of_length_le hk]

namespace Reader

/-- `r` reads `a` from exactly the bytes `used`: the same value whatever follows them, and
`truncated` on every proper prefix of them. -/
structure ReadsFrom (r : Reader α) (used : List UInt8) (a : α) : Prop where
  append : ∀ rest, r (used ++ rest) = .ok (a, rest)
  short : ∀ k < used.length, r (used.take k) = .error .truncated

/-- A reader decided by the bytes it consumes: a success read its value from a prefix of the
input, and a failure other than `truncated` stays whatever is appended. -/
structure Exact (r : Reader α) : Prop where
  ok : ∀ {bs a rest}, r bs = .ok (a, rest) → ∃ used, bs = used ++ rest ∧ ReadsFrom r used a
  error : ∀ {bs e} s, r bs = .error e → e ≠ .truncated → r (bs ++ s) = .error e

theorem Exact.of_width {r : Reader α} (n : Nat) (f : List UInt8 → α)
    (hr : ∀ bs, r bs = if n ≤ bs.length then .ok (f (bs.take n), bs.drop n)
      else .error .truncated) : Exact r where
  ok {bs a rest} h := by
    rw [hr] at h
    split at h
    · rename_i hn
      simp only [Except.ok.injEq, Prod.mk.injEq] at h
      obtain ⟨rfl, rfl⟩ := h
      have hlen : (bs.take n).length = n := by simp [hn]
      refine ⟨bs.take n, (List.take_append_drop n bs).symm, fun t => ?_, fun k hk => ?_⟩
      · rw [hr, if_pos (by simp [hlen]), List.take_append_of_le_length (Nat.le_of_eq hlen.symm),
          List.drop_append_of_le_length (Nat.le_of_eq hlen.symm),
          List.take_of_length_le (Nat.le_of_eq hlen),
          List.drop_of_length_le (Nat.le_of_eq hlen), List.nil_append]
      · rw [hr, if_neg (by simp only [List.length_take]; omega)]
    · cases h
  error {bs e} s h he := by
    rw [hr] at h
    split at h
    · cases h
    · cases h
      exact absurd rfl he

theorem Exact.bind {r : Reader α} {f : α × List UInt8 → Except HeaderError (β × List UInt8)}
    (hr : Exact r) (hf : ∀ a, Exact fun bs => f (a, bs)) : Exact fun bs => r bs >>= f where
  ok {bs b rest} h := by
    obtain ⟨⟨a, mid⟩, ha, hb⟩ := Except.bind_eq_ok.mp h
    obtain ⟨u, rfl, hu⟩ := hr.ok ha
    obtain ⟨v, rfl, hv⟩ := (hf a).ok hb
    refine ⟨u ++ v, (List.append_assoc u v rest).symm, fun t => ?_, fun k hk => ?_⟩
    · rw [List.append_assoc, hu.append, Except.ok_bind, hv.append]
    -- a prefix cut inside `u` stops the first reader, one cut inside `v` the second
    · rcases Nat.lt_or_ge k u.length with hku | hku
      · rw [List.take_append_of_le_length (Nat.le_of_lt hku), hu.short k hku, Except.error_bind]
      · rw [take_append_of_length_le hku, hu.append, Except.ok_bind]
        exact hv.short _ (by simp only [List.length_append] at hk; omega)
  error {bs e} s h he := by
    cases hra : r bs with
    | error e' =>
      rw [hra, Except.error_bind] at h
      cases h
      rw [hr.error s hra he, Except.error_bind]
    | ok p =>
      obtain ⟨a, mid⟩ := p
      rw [hra, Except.ok_bind] at h
      obtain ⟨u, rfl, hu⟩ := hr.ok hra
      rw [List.append_assoc, hu.append, Except.ok_bind]
      exact (hf a).error s h he

theorem Exact.lift (x : Except HeaderError α) : Exact fun bs => x >>= fun a => pure (a, bs) where
  ok {bs a rest} h := by
    obtain ⟨a', rfl, h⟩ := Except.bind_eq_ok.mp h
    cases h
    exact ⟨[], rfl, fun t => rfl, fun k hk => absurd hk (Nat.not_lt_zero k)⟩
  error {bs e} s h _ := by
    cases x with
    | error e' => exact h
    | ok a => cases h

theorem Exact.pure (a : α) : Exact fun bs => pure (a, bs) := Exact.lift (.ok a)

theorem Exact.throw (e : HeaderError) :
    Exact fun _ => (throw e : Except HeaderError (α × List UInt8)) :=
  Exact.lift (.error e)

end Reader

open Reader

def bigEndian (bytes : List UInt8) : Nat := bytes.foldl (fun acc b => acc * 256 + b.toNat) 0

theorem exact_take (n : Nat) : Exact (take n) :=
  .of_width n id fun _ => rfl

theorem exact_u8 : Exact u8 := by
  refine .of_width 1 bigEndian fun bs => ?_
  rcases bs with _ | ⟨a, rest⟩ <;> simp [u8, bigEndian]

theorem exact_u16 : Exact u16 := by
  refine .of_width 2 bigEndian fun bs => ?_
  rcases bs with _ | ⟨a, _ | ⟨b, rest⟩⟩ <;> simp [u16, bigEndian]

theorem exact_u32 : Exact u32 := by
  refine .of_width 4 bigEndian fun bs => ?_
  rcases bs with _ | ⟨a, _ | ⟨b, _ | ⟨c, _ | ⟨d, rest⟩⟩⟩⟩ <;> simp [u32, bigEndian]

theorem exact_readEntry : Exact readEntry := by
  refine Exact.bind exact_u8 fun tag => ?_
  by_cases h1 : tag = 1
  · simp only [h1, ↓reduceIte]
    refine Exact.bind exact_u16 fun len => ?_
    refine Exact.bind (exact_take len) fun raw => ?_
    dsimp only
    exact Exact.pure _
  by_cases h7 : tag = 7
  · simp only [h7, ↓reduceIte]
    refine Exact.bind exact_u16 fun index => ?_
    dsimp only
    exact Exact.pure _
  by_cases hw : tag = 5 ∨ tag = 6
  · simp only [h1, h7, hw, ↓reduceIte]
    refine Exact.bind (exact_take 8) fun _ => ?_
    dsimp only
    exact Exact.pure _
  cases hp : fixedPayload tag with
  | none =>
    simp only [h1, h7, hw, hp, ↓reduceIte]
    exact Exact.throw _
  | some n =>
    simp only [h1, h7, hw, hp, ↓reduceIte]
    refine Exact.bind (exact_take n) fun _ => ?_
    dsimp only
    exact Exact.pure _

theorem slotsOf_size_pos (entry : Constant × Bool) : 0 < (slotsOf entry).size := by
  rcases entry with ⟨c, _ | _⟩ <;> simp [slotsOf]

theorem readPool_eq_bind {count : Nat} {slots : Array Constant} (h : slots.size < count) :
    readPool count slots =
      fun bs => readEntry bs >>= fun p => readPool count (slots ++ slotsOf p.1) p.2 := by
  funext bs
  rw [readPool, if_pos h]
  cases readEntry bs <;> rfl

theorem exact_readPool (count : Nat) (slots : Array Constant) : Exact (readPool count slots) := by
  -- induction on the slots still to fill, which every entry read lowers
  induction h : count - slots.size using Nat.strong_induction_on generalizing slots with
  | _ n ih =>
    by_cases hlt : slots.size < count
    · rw [readPool_eq_bind hlt]
      refine Exact.bind exact_readEntry fun entry => ?_
      have hpos := slotsOf_size_pos entry
      have hsize : (slots ++ slotsOf entry).size = slots.size + (slotsOf entry).size :=
        Array.size_append ..
      exact ih (count - (slots ++ slotsOf entry).size) (by omega) _ rfl
    · have hstop : readPool count slots = fun bs => pure (slots, bs) :=
        funext (readPool_stop (Nat.le_of_not_lt hlt))
      rw [hstop]
      exact Exact.pure slots

/-- A reader of a whole input whose answer is decided by a prefix: an answer other than
`truncated` stays under any bytes appended, and a success has a length below which every prefix
is `truncated` and from which every prefix, with anything appended, gives the same success. -/
structure Prefixed (p : List UInt8 → Except HeaderError β) : Prop where
  append : ∀ {bs} s, p bs ≠ .error .truncated → p (bs ++ s) = p bs
  ok : ∀ {bs b}, p bs = .ok b → ∃ c ≤ bs.length,
    (∀ k < c, p (bs.take k) = .error .truncated) ∧ ∀ k, c ≤ k → ∀ s, p (bs.take k ++ s) = .ok b

namespace Prefixed

theorem bind {r : Reader α} {g : α × List UInt8 → Except HeaderError β} (hr : Exact r)
    (hg : ∀ a, Prefixed fun bs => g (a, bs)) : Prefixed fun bs => r bs >>= g where
  append {bs} s hne := by
    cases hra : r bs with
    | error e =>
      rw [hra, Except.error_bind] at hne
      rw [hr.error s hra fun he => hne (he ▸ rfl), Except.error_bind]
    | ok p =>
      obtain ⟨a, mid⟩ := p
      rw [hra, Except.ok_bind] at hne
      rw [Except.ok_bind]
      obtain ⟨u, rfl, hu⟩ := hr.ok hra
      rw [List.append_assoc, hu.append, Except.ok_bind]
      exact (hg a).append s hne
  ok {bs b} h := by
    obtain ⟨⟨a, mid⟩, ha, hb⟩ := Except.bind_eq_ok.mp h
    obtain ⟨u, rfl, hu⟩ := hr.ok ha
    obtain ⟨c, hc, hshort, hlong⟩ := (hg a).ok hb
    refine ⟨u.length + c, by simp only [List.length_append]; omega, fun k hk => ?_,
      fun k hk s => ?_⟩
    -- below `u.length` the field is cut short, from there to `u.length + c` the rest is
    · rcases Nat.lt_or_ge k u.length with hku | hku
      · rw [List.take_append_of_le_length (Nat.le_of_lt hku), hu.short k hku, Except.error_bind]
      · rw [take_append_of_length_le hku, hu.append, Except.ok_bind]
        exact hshort _ (by omega)
    · rw [take_append_of_length_le (by omega), List.append_assoc, hu.append, Except.ok_bind]
      exact hlong _ (by omega) s

theorem const (x : Except HeaderError β) : Prefixed fun _ => x where
  append _ _ := rfl
  ok h := ⟨0, Nat.zero_le _, fun k hk => absurd hk (Nat.not_lt_zero k), fun _ _ _ => h⟩

end Prefixed

/-- A header is read field by field up to `this_class`; the class name is then looked up in the
pool already read. -/
theorem prefixed_headerParse : Prefixed Header.parse := by
  refine Prefixed.bind exact_u32 fun word => ?_
  dsimp only
  by_cases hw : word = magic
  · simp only [hw, ne_eq, not_true_eq_false, ↓reduceIte]
    refine Prefixed.bind exact_u16 fun _ => ?_
    refine Prefixed.bind exact_u16 fun _ => ?_
    refine Prefixed.bind exact_u16 fun count => ?_
    dsimp only
    refine Prefixed.bind (exact_readPool count _) fun pool => ?_
    dsimp only
    refine Prefixed.bind exact_u16 fun flags => ?_
    dsimp only
    refine Prefixed.bind exact_u16 fun this => ?_
    dsimp only
    exact Prefixed.const _
  · simp only [hw, ne_eq, not_false_eq_true, ↓reduceIte]
    exact Prefixed.const _

theorem ClassDescriptor.parse_eq_truncated {path : Path} {bytes : List UInt8} :
    ClassDescriptor.parse path bytes = .error (.header path .truncated) ↔
      Header.parse bytes = .error .truncated := by
  unfold ClassDescriptor.parse
  cases Header.parse bytes <;> simp

/-- Reading a class file is decided by a prefix of its bytes. An answer other than `truncated`
stays whatever bytes are appended, so a file whose extension is truncated is truncated itself;
and a file that reads has a length, at most its own, below which every prefix is truncated and
from which every prefix, with anything after it, reads as the same class. -/
theorem parse_decided_by_prefix (path : Path) (b : List UInt8) :
    (∀ s, ClassDescriptor.parse path b ≠ .error (.header path .truncated) →
      ClassDescriptor.parse path (b ++ s) = ClassDescriptor.parse path b) ∧
    (∀ s, ClassDescriptor.parse path (b ++ s) = .error (.header path .truncated) →
      ClassDescriptor.parse path b = .error (.header path .truncated)) ∧
    ∀ d, ClassDescriptor.parse path b = .ok d → ∃ c ≤ b.length,
      (∀ k < c, ClassDescriptor.parse path (b.take k) = .error (.header path .truncated)) ∧
      ∀ k, c ≤ k → ∀ s, ClassDescriptor.parse path (b.take k ++ s) = .ok d := by
  have hstable : ∀ s, ClassDescriptor.parse path b ≠ .error (.header path .truncated) →
      ClassDescriptor.parse path (b ++ s) = ClassDescriptor.parse path b := by
    intro s hne
    have hh := prefixed_headerParse.append s (mt ClassDescriptor.parse_eq_truncated.mpr hne)
    unfold ClassDescriptor.parse
    rw [hh]
  refine ⟨hstable, fun s htr => ?_, fun d hd => ?_⟩
  · by_cases hne : ClassDescriptor.parse path b = .error (.header path .truncated)
    · exact hne
    · rw [← hstable s hne]
      exact htr
  · obtain ⟨h, hh, rfl⟩ := ClassDescriptor.parse_eq_ok.mp hd
    obtain ⟨c, hc, hshort, hlong⟩ := prefixed_headerParse.ok hh
    refine ⟨c, hc, fun k hk => ClassDescriptor.parse_eq_truncated.mpr (hshort k hk),
      fun k hk s => ?_⟩
    unfold ClassDescriptor.parse
    rw [hlong k hk s]

/-- Four bytes that are not the magic number already decide the file: it is no class file,
whatever follows them. -/
theorem bad_magic_decides_file :
    ClassDescriptor.parse ⟨"A.class"⟩ [0xCA, 0xFE, 0xBA, 0xBF] =
        .error (.header ⟨"A.class"⟩ .badMagic) ∧
      ∀ s, ClassDescriptor.parse ⟨"A.class"⟩ ([0xCA, 0xFE, 0xBA, 0xBF] ++ s) =
        .error (.header ⟨"A.class"⟩ .badMagic) := by
  have hbad : ClassDescriptor.parse ⟨"A.class"⟩ [0xCA, 0xFE, 0xBA, 0xBF] =
      .error (.header ⟨"A.class"⟩ .badMagic) := by
    decide
  obtain ⟨hstable, -, -⟩ := parse_decided_by_prefix ⟨"A.class"⟩ [0xCA, 0xFE, 0xBA, 0xBF]
  refine ⟨hbad, fun s => ?_⟩
  rw [hstable s (by simp [hbad]), hbad]

end TestDispatch.Classfile
