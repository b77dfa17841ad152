import TestDispatch.Proofs.Fs.Walk
import Mathlib.Data.List.Find
/-! Writing a file changes the entry at one path, from a file or nothing to a file, so every
other walk ends where it did and what is written reads back. -/
namespace TestDispatch.Fs

/-- What a successful walk shows of the tree: the file or link it ended at is there, and an
absent name is absent. A walk of no names ends at a directory it does not look up. -/
def Resolved.Seen (t : Tree) : Resolved → Prop
  | .found p e => e = .dir ∨ t.get? p = some e
  | .absent parent name => t.get? (parent ++ [name]) = none

/-- Where a walk ends once the file `e` is written at `q` over a file or over nothing: a walk that
ended at that file, or at that name while it was absent, now finds the new file, unless the
path asked for a directory. -/
def Resolved.afterWrite (q : List String) (e : Entry) (dirOnly : Bool) :
    Resolved → Except IoError Resolved
  | .found p e₀ => .ok (if p = q ∧ e₀.kind = .file then .found q e else .found p e₀)
  | .absent parent name =>
    if parent ++ [name] = q then (if dirOnly then .error .notADirectory else .ok (.found q e))
    else .ok (.absent parent name)

namespace Tree

theorem get?_set (t : Tree) (q p : List String) (e : Entry) :
    (t.set q e).get? p = if p ≠ [] ∧ p = q then some e else t.get? p := by
  by_cases hp : p = []
  · simp [get?, hp]
  · by_cases hpq : p = q
    · subst hpq
      simp [get?, set, hp]
    · simp only [get?, set, List.isEmpty_iff, hp, if_false, ne_eq, not_false_eq_true, hpq,
        and_false, List.find?_cons]
      have : (q = p) = False := by simp [Ne.symm hpq]
      simp only [this, decide_false, List.find?_filter]
      congr 1
      apply List.find?_congr
      intro x _
      by_cases hx : x.1 = p
      · simp [hx, hpq]
      · simp [hx]

theorem get?_set_of_kind_ne {t : Tree} {q : List String} {e' : Entry}
    (hq : ∀ e, t.get? q = some e → e.kind = .file) {p : List String} {e : Entry}
    (hp : t.get? p = some e) (he : e.kind ≠ .file) : (t.set q e').get? p = some e := by
  rw [get?_set, if_neg]
  · exact hp
  · rintro ⟨-, rfl⟩
    exact he (hq e hp)

theorem walk_seen {t : Tree} {fuel links : Nat} {cur cs : List String} {follow dirOnly : Bool}
    {r : Resolved} (h : t.walk fuel links cur cs follow dirOnly = .ok r) : r.Seen t := by
  fun_induction t.walk fuel links cur cs follow dirOnly generalizing r
  case case2 => cases h; exact .inl rfl
  case case6 hnone _ => cases h; exact hnone
  case case9 hfile _ => cases h; exact .inr hfile
  case case11 hlink _ => cases h; exact .inr hlink
  case case3 ih | case4 ih | case8 ih | case14 ih => exact ih h
  all_goals cases h

theorem walk_set_file {t : Tree} {q : List String} {bytes : List UInt8} {mode : Nat}
    (hq : ∀ e, t.get? q = some e → e.kind = .file) {fuel links : Nat} {cur cs : List String}
    {follow dirOnly : Bool} {r : Resolved} (h : t.walk fuel links cur cs follow dirOnly = .ok r) :
    (t.set q (.file bytes mode)).walk fuel links cur cs follow dirOnly =
      r.afterWrite q (.file bytes mode) dirOnly := by
  fun_induction t.walk fuel links cur cs follow dirOnly generalizing r
  case case2 => cases h; simp [walk, Resolved.afterWrite, Entry.kind]
  case case3 ih | case4 ih => simpa [walk] using ih h
  case case6 cur c cs _ dirOnly hdot hdd hlen _ hnone hcs =>
    cases h
    by_cases hpq : cur ++ [c] = q
    · subst hpq
      cases dirOnly <;> simp [walk, hdot, hdd, hlen, get?_set, hcs, Resolved.afterWrite]
    · replace hnone : t.get? (cur ++ [c]) = none := hnone
      simp [walk, hdot, hdd, hlen, get?_set, hpq, hnone, hcs, Resolved.afterWrite]
  case case8 cur c cs _ _ hdot hdd hlen _ hdir ih =>
    replace hdir : t.get? (cur ++ [c]) = some .dir := hdir
    simp only [walk, hdot, hdd, hlen, if_false, get?_set_of_kind_ne hq hdir nofun]
    exact ih h
  case case9 cur c cs _ dirOnly hdot hdd hlen p b m hfile hcs =>
    cases h
    simp only [p] at hfile ⊢
    obtain ⟨rfl, rfl⟩ : cs = [] ∧ dirOnly = false := by simpa using hcs
    by_cases hpq : cur ++ [c] = q
    · subst hpq
      simp [walk, hdot, hdd, hlen, get?_set, Resolved.afterWrite, Entry.kind]
    · simp [walk, hdot, hdd, hlen, get?_set, hpq, hfile, Resolved.afterWrite]
  case case11 cur c cs follow dirOnly hdot hdd hlen p target hlink hlast =>
    cases h
    simp only [p] at hlink ⊢
    obtain ⟨rfl, rfl, rfl⟩ : cs = [] ∧ follow = false ∧ dirOnly = false := by simpa using hlast
    simp [walk, hdot, hdd, hlen, get?_set_of_kind_ne hq hlink nofun, Resolved.afterWrite,
      Entry.kind]
  case case14 cur c cs _ _ hdot hdd hlen _ target hlink hlast hlinks hempty _ ih =>
    replace hlink : t.get? (cur ++ [c]) = some (.symlink target) := hlink
    simp only [walk, hdot, hdd, hlen, if_false, get?_set_of_kind_ne hq hlink nofun, hlast,
      hlinks, hempty]
    exact ih h
  all_goals cases h

/-- A walk that fails still fails once a file is written over a file or over nothing: the new
file can end a walk but never lets one through. -/
theorem walk_set_file_error {t : Tree} {q : List String} {bytes : List UInt8} {mode : Nat}
    (hq : ∀ e, t.get? q = some e → e.kind = .file) {fuel links : Nat} {cur cs : List String}
    {follow dirOnly : Bool} {err : IoError}
    (h : t.walk fuel links cur cs follow dirOnly = .error err) :
    ∃ err', (t.set q (.file bytes mode)).walk fuel links cur cs follow dirOnly = .error err' := by
  fun_induction t.walk fuel links cur cs follow dirOnly generalizing err
  case case1 => exact ⟨.tooManyLinks, by simp [walk]⟩
  case case3 ih | case4 ih => simpa [walk] using ih h
  case case5 hdot hdd hlen => exact ⟨.nameTooLong, by simp [walk, hdot, hdd, hlen]⟩
  case case7 cur c cs _ dirOnly hdot hdd hlen _ hnone hcs =>
    by_cases hpq : cur ++ [c] = q
    · subst hpq
      exact ⟨.notADirectory, by simp [walk, hdot, hdd, hlen, get?_set, hcs]⟩
    · replace hnone : t.get? (cur ++ [c]) = none := hnone
      exact ⟨.notFound, by simp [walk, hdot, hdd, hlen, get?_set, hpq, hnone, hcs]⟩
  case case8 cur c cs _ _ hdot hdd hlen _ hdir ih =>
    replace hdir : t.get? (cur ++ [c]) = some .dir := hdir
    simp only [walk, hdot, hdd, hlen, if_false, get?_set_of_kind_ne hq hdir nofun]
    exact ih h
  case case10 cur c cs _ dirOnly hdot hdd hlen p b m hfile hcs =>
    simp only [p] at hfile
    by_cases hpq : cur ++ [c] = q
    · subst hpq
      exact ⟨.notADirectory, by simpa [walk, hdot, hdd, hlen, get?_set] using hcs⟩
    · exact ⟨.notADirectory, by simpa [walk, hdot, hdd, hlen, get?_set, hpq, hfile] using hcs⟩
  case case12 cur c cs follow dirOnly hdot hdd hlen p target hlink hlast hlinks =>
    simp only [p] at hlink
    exact ⟨.tooManyLinks, by simpa [walk, hdot, hdd, hlen, get?_set_of_kind_ne hq hlink nofun,
      hlinks] using hlast⟩
  case case13 cur c cs follow dirOnly hdot hdd hlen p target hlink hlast hlinks hempty =>
    simp only [p] at hlink
    exact ⟨.notFound, by simpa [walk, hdot, hdd, hlen, get?_set_of_kind_ne hq hlink nofun,
      hlinks, hempty] using hlast⟩
  case case14 cur c cs _ _ hdot hdd hlen _ target hlink hlast hlinks hempty _ ih =>
    replace hlink : t.get? (cur ++ [c]) = some (.symlink target) := hlink
    simp only [walk, hdot, hdd, hlen, if_false, get?_set_of_kind_ne hq hlink nofun, hlast,
      hlinks, hempty]
    exact ih h
  all_goals cases h

theorem resolve_seen {t : Tree} {cwd : List String} {path : String} {follow : Bool} {r : Resolved}
    (h : t.resolve cwd path follow = .ok r) : r.Seen t := by
  unfold resolve at h
  split_ifs at h <;> exact walk_seen h

theorem resolve_set_file {t : Tree} {q : List String} {bytes : List UInt8} {mode : Nat}
    (hq : ∀ e, t.get? q = some e → e.kind = .file) {cwd : List String} {path : String}
    {follow : Bool} {r : Resolved} (h : t.resolve cwd path follow = .ok r) :
    (t.set q (.file bytes mode)).resolve cwd path follow =
      r.afterWrite q (.file bytes mode) (path.endsWith "/") := by
  unfold resolve at h ⊢
  split_ifs at h ⊢ <;> exact walk_set_file hq h

theorem resolve_set_file_error {t : Tree} {q : List String} {bytes : List UInt8} {mode : Nat}
    (hq : ∀ e, t.get? q = some e → e.kind = .file) {cwd : List String} {path : String}
    {follow : Bool} {err : IoError} (h : t.resolve cwd path follow = .error err) :
    ∃ err', (t.set q (.file bytes mode)).resolve cwd path follow = .error err' := by
  unfold resolve at h ⊢
  split_ifs at h ⊢ <;> first | exact ⟨_, rfl⟩ | exact walk_set_file_error hq h

/-- A write that succeeds puts a file where the path resolves, over a file or over nothing, and
the path then resolves to the new file. -/
theorem writeFile_eq_ok {t t' : Tree} {cwd : List String} {path : String} {bytes : List UInt8}
    (h : t.writeFile cwd path bytes = .ok t') :
    ∃ q mode, (∀ e, t.get? q = some e → e.kind = .file) ∧ t' = t.set q (.file bytes mode) ∧
      t'.resolve cwd path true = .ok (.found q (.file bytes mode)) := by
  unfold writeFile at h
  split at h
  · rename_i q b m hres
    cases h
    have hq : t.get? q = some (.file b m) := (resolve_seen hres).resolve_left (by simp)
    have hwritable : ∀ e, t.get? q = some e → e.kind = .file := by
      intro e he
      rw [hq] at he
      cases he
      rfl
    refine ⟨q, m, hwritable, rfl, ?_⟩
    rw [resolve_set_file hwritable hres]
    simp [Resolved.afterWrite, Entry.kind]
  · cases h
  · rename_i parent name hres
    split at h
    · cases h
    · rename_i hdir
      cases h
      have hnone : t.get? (parent ++ [name]) = none := resolve_seen hres
      have hwritable : ∀ e, t.get? (parent ++ [name]) = some e → e.kind = .file := by
        intro e he
        rw [hnone] at he
        cases he
      refine ⟨parent ++ [name], 420, hwritable, rfl, ?_⟩
      rw [resolve_set_file hwritable hres]
      simp [Resolved.afterWrite, hdir]
  · cases h

theorem readBytes_writeFile {t t' : Tree} {cwd : List String} {path : String} {bytes : List UInt8}
    (h : t.writeFile cwd path bytes = .ok t') : t'.readBytes cwd path = .ok bytes := by
  obtain ⟨q, mode, -, -, hres⟩ := writeFile_eq_ok h
  simp [readBytes, stat, hres]

/-- Writing a file changes no directory: a path names a directory afterwards exactly when it did
before. -/
theorem isDir_writeFile {t t' : Tree} {cwd : List String} {path : String} {bytes : List UInt8}
    (h : t.writeFile cwd path bytes = .ok t') (dir : String) :
    t'.isDir cwd dir = t.isDir cwd dir := by
  obtain ⟨q, mode, hwritable, rfl, -⟩ := writeFile_eq_ok h
  unfold isDir stat
  cases hres : t.resolve cwd dir true with
  | error e =>
    obtain ⟨e', he'⟩ : ∃ e', (t.set q (.file bytes mode)).resolve cwd dir true = .error e' :=
      resolve_set_file_error hwritable hres
    simp [he']
  | ok r =>
    rw [resolve_set_file hwritable hres]
    cases r with
    | found p e₀ =>
      by_cases hw : p = q ∧ e₀.kind = .file
      · cases e₀ <;> simp_all [Resolved.afterWrite, Entry.kind]
      · simp [Resolved.afterWrite, hw]
    | absent parent name =>
      simp only [Resolved.afterWrite]
      split_ifs <;> rfl

end Tree

end TestDispatch.Fs
