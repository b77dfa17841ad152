import TestDispatch.Proofs.Fs.Resolve
/-! Removing a directory. A walk only looks entries up, so it ends where it did in any tree that
holds the entries it saw; a path whose last part is a name ends at an entry it looked up. Once
`removeDirAll` has erased what such a path named, the path names nothing. -/
namespace TestDispatch.Fs

namespace Tree

theorem get?_erase (t : Tree) (q p : List String) :
    (t.erase q).get? p = if p ≠ [] ∧ q <+: p then none else t.get? p := by
  by_cases hp : p = []
  · simp [get?, hp]
  simp only [get?, erase, List.isEmpty_iff, hp, if_false, ne_eq, not_false_eq_true, true_and,
    List.find?_filter]
  by_cases hq : q <+: p
  · rw [if_pos hq, Option.map_eq_none_iff, List.find?_eq_none]
    rintro ⟨x, e⟩ - hx
    simp only [Bool.not_eq_true', decide_eq_true_eq] at hx
    rw [hx.2, List.isPrefixOf_iff_prefix.mpr hq] at hx
    cases hx.1
  · rw [if_neg hq]
    congr 1
    apply List.find?_congr
    rintro ⟨x, e⟩ -
    by_cases hx : x = p
    · subst hx
      have hpre : q.isPrefixOf x = false :=
        Bool.eq_false_iff.mpr fun h => hq (List.isPrefixOf_iff_prefix.mp h)
      simp [hpre]
    · simp [hx]

theorem get?_erase_of_get? {t : Tree} {q p : List String} {e : Entry}
    (h : (t.erase q).get? p = some e) : t.get? p = some e := by
  rw [get?_erase] at h
  split at h
  · cases h
  · exact h

variable {t t' : Tree} {fuel links : Nat} {cur cs : List String} {follow dirOnly : Bool}
  {p : List String} {e : Entry}

theorem walk_found_of_sub (hsub : ∀ q e, t'.get? q = some e → t.get? q = some e)
    (h : t'.walk fuel links cur cs follow dirOnly = .ok (.found p e)) :
    t.walk fuel links cur cs follow dirOnly = .ok (.found p e) := by
  fun_induction t'.walk fuel links cur cs follow dirOnly
  case case2 => simpa [walk] using h
  case case3 ih | case4 ih => simpa [walk] using ih h
  case case8 cur c cs _ _ hdot hdd hlen _ hdir ih =>
    have hdir' : t.get? (cur ++ [c]) = some .dir := hsub _ _ hdir
    simp only [walk, hdot, hdd, hlen, if_false, hdir']
    exact ih h
  case case9 cur c cs _ _ hdot hdd hlen _ b m hfile hcs =>
    have hfile' : t.get? (cur ++ [c]) = some (.file b m) := hsub _ _ hfile
    simp only [walk, hdot, hdd, hlen, if_false, hfile', hcs]
    exact h
  case case11 cur c cs _ _ hdot hdd hlen _ target hlink hlast =>
    have hlink' : t.get? (cur ++ [c]) = some (.symlink target) := hsub _ _ hlink
    simp only [walk, hdot, hdd, hlen, if_false, hlink', hlast]
    exact h
  case case14 cur c cs _ _ hdot hdd hlen _ target hlink hlast hlinks hempty _ ih =>
    have hlink' : t.get? (cur ++ [c]) = some (.symlink target) := hsub _ _ hlink
    simp only [walk, hdot, hdd, hlen, if_false, hlink', hlast, hlinks, hempty]
    exact ih h
  all_goals cases h

def LastName (cs : List String) : Prop := ∃ n, cs.getLast? = some n ∧ n ≠ "." ∧ n ≠ ".."

theorem LastName.of_cons {c : String} {cs : List String} (h : LastName (c :: cs))
    (hc : c = "." ∨ c = "..") : LastName cs := by
  obtain ⟨n, hn, h1, h2⟩ := h
  cases cs with
  | nil => rcases hc with rfl | rfl <;> simp_all
  | cons d ds => exact ⟨n, by simpa [List.getLast?_cons] using hn, h1, h2⟩

theorem LastName.tail {c d : String} {ds : List String} (h : LastName (c :: d :: ds)) :
    LastName (d :: ds) := by
  obtain ⟨n, hn, hn'⟩ := h
  exact ⟨n, by simpa [List.getLast?_cons] using hn, hn'⟩

theorem LastName.append_left (l : List String) {cs : List String} (hne : cs ≠ [])
    (h : LastName cs) : LastName (l ++ cs) := by
  obtain ⟨n, hn, hn'⟩ := h
  exact ⟨n, by rw [List.getLast?_append_of_ne_nil _ hne, hn], hn'⟩

/-- A walk that does not follow a last link, of names ending in a proper one, ends at an entry
it looked up. -/
theorem walk_found_get? (hf : follow = false) (hd : dirOnly = false)
    (hinv : LastName cs ∨ (cs = [] ∧ cur ≠ [] ∧ t.get? cur = some .dir))
    (h : t.walk fuel links cur cs follow dirOnly = .ok (.found p e)) :
    p ≠ [] ∧ t.get? p = some e := by
  -- the last name survives every step but the one that looks it up
  fun_induction t.walk fuel links cur cs follow dirOnly
  case case2 =>
    rcases hinv with ⟨n, hn, -⟩ | ⟨-, hcur, hdir⟩
    · cases hn
    · cases h
      exact ⟨hcur, hdir⟩
  case case3 ih | case4 ih =>
    rcases hinv with hl | ⟨hnil, -⟩
    · exact ih hf hd (.inl (hl.of_cons (by simp))) h
    · cases hnil
  case case8 cur c cs _ _ hdot hdd hlen _ hdir ih =>
    refine ih hf hd ?_ h
    rcases hinv with hl | ⟨hnil, -⟩
    · cases cs with
      | nil => exact .inr ⟨rfl, show cur ++ [c] ≠ [] by simp, hdir⟩
      | cons d ds => exact .inl hl.tail
    · cases hnil
  case case9 cur c cs _ _ hdot hdd hlen _ b m hfile hcs =>
    simp only [Except.ok.injEq, Resolved.found.injEq] at h
    obtain ⟨rfl, rfl⟩ := h
    exact ⟨show cur ++ [c] ≠ [] by simp, hfile⟩
  case case11 cur c cs _ _ hdot hdd hlen _ target hlink hlast =>
    simp only [Except.ok.injEq, Resolved.found.injEq] at h
    obtain ⟨rfl, rfl⟩ := h
    exact ⟨show cur ++ [c] ≠ [] by simp, hlink⟩
  case case14 cur c cs _ _ hdot hdd hlen _ target hlink hlast hlinks hempty _ ih =>
    refine ih hf hd ?_ h
    rcases hinv with hl | ⟨hnil, -⟩
    · cases cs with
      | nil => simp [hf, hd] at hlast
      | cons d ds => exact .inl (hl.tail.append_left _ (List.cons_ne_nil d ds))
    · cases hnil
  all_goals cases h

/-- Paths whose last part is a proper name and that do not end with `/`. -/
def EndsInName (path : String) : Prop :=
  LastName ((Path.mk path).parts.filter (· ≠ "")) ∧ path.endsWith "/" = false

theorem lstat_found_of_sub (hsub : ∀ q e, t'.get? q = some e → t.get? q = some e)
    {cwd : List String} {path : String} (h : t'.lstat cwd path = .ok (p, e)) :
    t.lstat cwd path = .ok (p, e) := by
  have hr := resolve_of_lstat h
  have hw := walkable_of_resolve hr
  rw [resolve_of_walkable hw] at hr
  rw [lstat, resolve_of_walkable hw, walk_found_of_sub hsub hr]

theorem lstat_get? {cwd : List String} {path : String} (hpath : EndsInName path)
    (h : t.lstat cwd path = .ok (p, e)) : p ≠ [] ∧ t.get? p = some e := by
  have hr := resolve_of_lstat h
  rw [resolve_of_walkable (walkable_of_resolve hr)] at hr
  exact walk_found_get? rfl hpath.2 (.inl hpath.1) hr

/-- Once `removeDirAll` has removed what a path named, the path names nothing. -/
theorem lstat_removeDirAll {cwd : List String} {path : String} (hpath : EndsInName path)
    (h : t.removeDirAll cwd path = .ok t') : ∀ r, t'.lstat cwd path ≠ .ok r := by
  rintro ⟨p, e⟩ hr
  obtain ⟨q, hq⟩ : ∃ q, t' = t.erase q ∧ ∃ e₀, t.lstat cwd path = .ok (q, e₀) := by
    unfold removeDirAll at h
    split at h <;> cases h
    all_goals exact ⟨_, rfl, _, ‹_›⟩
  obtain ⟨rfl, e₀, hl⟩ := hq
  have hold := lstat_found_of_sub (fun _ _ => get?_erase_of_get?) hr
  rw [hl] at hold
  obtain ⟨rfl, -⟩ := Prod.mk.inj (Except.ok.inj hold)
  obtain ⟨hne, hget⟩ := lstat_get? hpath hr
  rw [get?_erase, if_pos ⟨hne, List.prefix_refl _⟩] at hget
  cases hget

/-- Removing what a path names, keeping the tree when that fails: afterwards the path names no
directory and no link. -/
theorem lstat_removeDirAll_getD {cwd : List String} {path : String} (hpath : EndsInName path)
    (h : ((t.removeDirAll cwd path).toOption.getD t).lstat cwd path = .ok (p, e)) :
    e.kind = .file := by
  cases hr : t.removeDirAll cwd path with
  | ok t' =>
    rw [hr] at h
    exact absurd h (lstat_removeDirAll hpath hr _)
  | error err =>
    rw [hr] at h
    unfold removeDirAll at hr
    rw [show (Except.error err : Except IoError Tree).toOption.getD t = t from rfl] at h
    rw [h] at hr
    cases e <;> simp [Entry.kind] at hr ⊢

end Tree

end TestDispatch.Fs
