import TestDispatch.Proofs.Fs.Write
/-! Resolving a name joined below a directory: once the directory resolves, the joined path
resolves by one more step (`Tree.walk_append_of_dir`). -/
namespace TestDispatch

theorem not_mem_of_mem_splitOn {a : Char} :
    ∀ {l y : List Char}, y ∈ l.splitOn a → a ∉ y
  | [], y, h => by simp_all [List.splitOn_nil]
  | x :: l, y, h => by
    rw [List.splitOn_cons_eq_if_modifyHead] at h
    have ih : ∀ z ∈ l.splitOn a, a ∉ z := fun z hz => not_mem_of_mem_splitOn hz
    split at h
    · rcases List.mem_cons.mp h with rfl | h
      · simp
      · exact ih y h
    · rename_i hx
      obtain ⟨z, zs, hzs⟩ : ∃ z zs, l.splitOn a = z :: zs := by
        cases hl : l.splitOn a with
        | nil => exact absurd hl (List.splitOn_ne_nil a l)
        | cons z zs => exact ⟨z, zs, rfl⟩
      rw [hzs, List.modifyHead_cons] at h
      rcases List.mem_cons.mp h with rfl | h
      · have hz := ih z (by simp [hzs])
        simp only [beq_iff_eq] at hx
        simp [Ne.symm hx, hz]
      · exact ih y (by simp [hzs, h])

namespace Path

@[simp] theorem mk_text (p : Path) : Path.mk p.text = p := rfl

theorem toList_slash : "/".toList = ['/'] := rfl

theorem not_startsWith_slash {s : String} (hs : '/' ∉ s.toList) : s.startsWith "/" = false := by
  simp [← String.startsWith_toSlice]
  rintro ⟨rest, h⟩
  exact hs (by simp [← h])

theorem not_endsWith_slash {s : String} (hs : '/' ∉ s.toList) (hne : s ≠ "") (x : String) :
    (x ++ s).endsWith "/" = false := by
  simp [← String.endsWith_toSlice]
  rintro ⟨rest, h⟩
  have hlast := congrArg List.getLast? h
  obtain ⟨c, hc⟩ : ∃ c, s.toList.getLast? = some c := by
    refine Option.ne_none_iff_exists'.mp ?_
    simpa [List.getLast?_eq_none_iff] using hne
  rw [List.getLast?_append, List.getLast?_append, hc] at hlast
  simp at hlast
  exact hs (hlast ▸ List.mem_of_getLast? hc)

theorem startsWith_slash_append {a : String} (ha : a ≠ "") (b : String) :
    (a ++ b).startsWith "/" = a.startsWith "/" := by
  obtain ⟨c, cs, hc⟩ : ∃ c cs, a.toList = c :: cs := by
    cases h : a.toList with
    | nil => exact absurd (String.toList_eq_nil_iff.mp h) ha
    | cons c cs => exact ⟨c, cs, rfl⟩
  rw [Bool.eq_iff_iff]
  simp [← String.startsWith_toSlice, hc]

theorem join_text {dir : Path} {s : String} (hs : '/' ∉ s.toList) :
    (dir.join s).text = if dir.text = "" ∨ dir.text.endsWith "/" = true then dir.text ++ s
      else dir.text ++ "/" ++ s := by
  simp only [join, push, isAbsolute, not_startsWith_slash hs, Bool.false_eq_true, if_false]
  split <;> rfl

theorem comps_join {dir : Path} {s : String} (hdir : dir.text ≠ "") (hs : '/' ∉ s.toList)
    (hne : s ≠ "") :
    (dir.join s).parts.filter (· ≠ "") = dir.parts.filter (· ≠ "") ++ [s] := by
  have hsplit : s.toList.splitOn '/' = [s.toList] := List.splitOn_eq_singleton hs
  unfold parts
  rw [join_text hs]
  by_cases hend : dir.text.endsWith "/" = true
  · have hsuf : ['/'] <:+ dir.text.toList := by
      simp [← String.endsWith_toSlice] at hend
      exact hend
    obtain ⟨L, hL⟩ := hsuf
    simp only [hdir, hend, or_true, if_true, String.toList_append, ← hL, List.append_assoc,
      List.singleton_append, List.splitOn_append_cons_self, hsplit, List.splitOn_nil]
    simp [hne]
  · simp only [Bool.not_eq_true] at hend
    simp only [hdir, hend, Bool.false_eq_true, or_self, if_false, String.toList_append,
      toList_slash, List.append_assoc, List.singleton_append, List.splitOn_append_cons_self, hsplit]
    simp [hne]

theorem startsWith_join {dir : Path} {s : String} (hdir : dir.text ≠ "") (hs : '/' ∉ s.toList) :
    (dir.join s).text.startsWith "/" = dir.text.startsWith "/" := by
  rw [join_text hs]
  split
  · exact startsWith_slash_append hdir s
  · rw [String.append_assoc]
    exact startsWith_slash_append hdir _

theorem endsWith_join {dir : Path} {s : String} (hs : '/' ∉ s.toList) (hne : s ≠ "") :
    (dir.join s).text.endsWith "/" = false := by
  rw [join_text hs]
  split <;> exact not_endsWith_slash hs hne _

theorem length_join {dir : Path} {s : String} (hs : '/' ∉ s.toList) (hne : s ≠ "") :
    dir.text.length < (dir.join s).text.length := by
  have hpos : 0 < s.length := by
    rw [← String.length_toList, List.length_pos_iff, Ne, String.toList_eq_nil_iff]
    exact hne
  rw [join_text hs]
  split <;> simp only [String.length_append] <;> omega

theorem text_joinAll {dir : Path} {ns : List String} (hns : ∀ n ∈ ns, '/' ∉ n.toList) :
    ∃ x, (dir.joinAll ns).text = dir.text ++ x := by
  induction ns generalizing dir with
  | nil => exact ⟨"", by simp⟩
  | cons n ns ih =>
    obtain ⟨x, hx⟩ : ∃ x, ((dir.join n).joinAll ns).text = (dir.join n).text ++ x :=
      ih fun m hm => hns m (List.mem_cons_of_mem n hm)
    rw [Path.joinAll_cons, hx, join_text (hns n List.mem_cons_self)]
    split
    · exact ⟨n ++ x, by simp [String.append_assoc]⟩
    · exact ⟨"/" ++ n ++ x, by simp [String.append_assoc]⟩

theorem filterMap_bodyComponent (l : List String) :
    l.filterMap bodyComponent = (l.filter (· ≠ "")).filterMap bodyComponent := by
  rw [List.filterMap_filter]
  congr 1
  funext x
  by_cases hx : x = "" <;> simp [hx, bodyComponent]

theorem fileName?_join {dir : Path} {s : String} (hdir : dir.text ≠ "") (hs : '/' ∉ s.toList)
    (hne : s ≠ "") (hdot : s ≠ "." ∧ s ≠ "..") : (dir.join s).fileName? = some s := by
  have hbody : (dir.join s).parts.filterMap bodyComponent =
      dir.parts.filterMap bodyComponent ++ [.normal s] := by
    rw [filterMap_bodyComponent, comps_join hdir hs hne, List.filterMap_append,
      ← filterMap_bodyComponent]
    simp [bodyComponent, hne, hdot.1, hdot.2]
  unfold fileName? components
  simp only [hbody]
  split_ifs
  · rw [← List.cons_append, List.getLast?_concat]
  · rw [← List.cons_append, List.getLast?_concat]
  · rw [List.getLast?_concat]

end Path

namespace Fs.Tree

/-- A path that resolution walks rather than refusing outright: no NUL byte, not empty, and
shorter than 4096 bytes. -/
def Walkable (path : String) : Prop :=
  path.toList.contains (Char.ofNat 0) = false ∧ path.isEmpty = false ∧ path.utf8ByteSize < 4096

theorem walkable_of_resolve {t : Tree} {cwd : List String} {path : String} {follow : Bool}
    {r : Resolved} (h : t.resolve cwd path follow = .ok r) : Walkable path := by
  unfold resolve at h
  split_ifs at h with h1 h2 h3 <;>
    first | cases h | exact ⟨by simpa using h1, by simpa using h2, by omega⟩

theorem resolve_of_walkable {t : Tree} {cwd : List String} {path : String} (h : Walkable path)
    (follow : Bool) :
    t.resolve cwd path follow =
      t.walk (((Path.mk path).parts.filter (· ≠ "")).length + 40 * (path.length + 2) + 4096) 0
        (if path.startsWith "/" then [] else cwd) ((Path.mk path).parts.filter (· ≠ "")) follow
        (path.endsWith "/") := by
  obtain ⟨h1, h2, h3⟩ := h
  simp only [resolve, h1, h2, Bool.false_eq_true, if_false, ge_iff_le, Nat.not_le.mpr h3]

theorem resolve_of_stat {t : Tree} {cwd : List String} {path : String} {p : List String}
    {e : Entry} (h : t.stat cwd path = .ok (p, e)) : t.resolve cwd path true = .ok (.found p e) := by
  unfold stat at h
  split at h
  · cases h
    assumption
  all_goals cases h

theorem resolve_of_lstat {t : Tree} {cwd : List String} {path : String} {p : List String}
    {e : Entry} (h : t.lstat cwd path = .ok (p, e)) :
    t.resolve cwd path false = .ok (.found p e) := by
  unfold lstat at h
  split at h
  · cases h
    assumption
  all_goals cases h

theorem resolve_set_of_found {t : Tree} {q : List String} {bytes : List UInt8} {mode : Nat}
    (hq : ∀ e, t.get? q = some e → e.kind = .file) {cwd : List String} {path : String}
    {loc : List String} {e : Entry} (h : t.resolve cwd path true = .ok (.found loc e))
    (hne : loc ≠ q ∨ e.kind ≠ .file) :
    (t.set q (.file bytes mode)).resolve cwd path true = .ok (.found loc e) := by
  rw [resolve_set_file hq h]
  simp only [Resolved.afterWrite]
  rw [if_neg fun hw => hne.elim (fun hloc => hloc hw.1) fun hkind => hkind hw.2]

theorem readBytes_of_resolve {t : Tree} {cwd : List String} {path : String} {loc : List String}
    {bytes : List UInt8} {mode : Nat}
    (h : t.resolve cwd path true = .ok (.found loc (.file bytes mode))) :
    t.readBytes cwd path = .ok bytes := by
  simp [readBytes, stat, h]

theorem walkable_of_readBytes {t : Tree} {cwd : List String} {path : String} {bytes : List UInt8}
    (h : t.readBytes cwd path = .ok bytes) : Walkable path := by
  cases hr : t.resolve cwd path true with
  | error e => simp [readBytes, stat, hr] at h
  | ok r => exact walkable_of_resolve hr

/-- Every name on every path of the tree is a plain file name: it holds no `/`. -/
def PlainNames (t : Tree) : Prop := ∀ x ∈ t.entries, ∀ n ∈ x.1, '/' ∉ n.toList

theorem Below.slash_not_mem {t : Tree} (ht : t.PlainNames) {p ns : List String} {e : Entry}
    (h : t.Below p ns e) : ∀ n ∈ ns, '/' ∉ n.toList :=
  h.forall_names ht

/-- A walk that ends at a directory is the first part of any longer walk: with `k` more fuel,
the longer walk goes on from that directory with `k` more fuel than was left. -/
theorem walk_append_of_dir {t : Tree} {fuel links : Nat} {cur cs p : List String}
    {follow dirOnly : Bool} (h : t.walk fuel links cur cs follow dirOnly = .ok (.found p .dir)) :
    ∃ j links', ∀ rest : List String, rest ≠ [] → ∀ k follow' dirOnly',
      t.walk (fuel + k) links cur (cs ++ rest) follow' dirOnly' =
        t.walk (j + 1 + k) links' p rest follow' dirOnly' := by
  fun_induction t.walk fuel links cur cs follow dirOnly generalizing p
  case case2 fuel links cur _ _ =>
    cases h
    exact ⟨fuel, links, fun rest _ k follow' dirOnly' => rfl⟩
  case case3 fuel links cur cs _ _ ih =>
    obtain ⟨j, links', hj⟩ := ih h
    refine ⟨j, links', fun rest hrest k follow' dirOnly' => ?_⟩
    rw [← hj rest hrest k follow' dirOnly', Nat.succ_add]
    simp [walk]
  case case4 fuel links cur cs _ _ _ ih =>
    obtain ⟨j, links', hj⟩ := ih h
    refine ⟨j, links', fun rest hrest k follow' dirOnly' => ?_⟩
    rw [← hj rest hrest k follow' dirOnly', Nat.succ_add]
    simp [walk]
  case case8 fuel links cur c cs _ _ hdot hdd hlen _ hdir ih =>
    replace hdir : t.get? (cur ++ [c]) = some .dir := hdir
    obtain ⟨j, links', hj⟩ := ih h
    refine ⟨j, links', fun rest hrest k follow' dirOnly' => ?_⟩
    rw [← hj rest hrest k follow' dirOnly', Nat.succ_add]
    simp [walk, hdot, hdd, hlen, hdir]
    rfl
  -- a link before the rest is followed whatever `follow'` says, since names come after it
  case case14 fuel links cur c cs _ _ hdot hdd hlen _ target hlink _ hlinks hempty base ih =>
    replace hlink : t.get? (cur ++ [c]) = some (.symlink target) := hlink
    obtain ⟨j, links', hj⟩ := ih h
    refine ⟨j, links', fun rest hrest k follow' dirOnly' => ?_⟩
    rw [← hj rest hrest k follow' dirOnly', Nat.succ_add]
    simp [walk, hdot, hdd, hlen, hlink, hlinks, hempty, hrest, base]
  all_goals cases h

/-- Once `dir` resolves to the directory at `pw`, a plain name joined below it resolves by one
step from `pw`. -/
theorem resolve_join {t : Tree} {cwd pw : List String} {dir : Path} {s : String}
    (hdir : t.resolve cwd dir.text true = .ok (.found pw .dir)) (hs : '/' ∉ s.toList)
    (hne : s ≠ "") (hw : Walkable (dir.join s).text) (follow : Bool) :
    ∃ n links, t.resolve cwd (dir.join s).text follow = t.walk (n + 2) links pw [s] follow false := by
  have hwd := walkable_of_resolve hdir
  have hdne : dir.text ≠ "" := by
    intro h
    simp [Walkable, h] at hwd
  rw [resolve_of_walkable hwd, Path.mk_text] at hdir
  obtain ⟨j, links, hj⟩ := walk_append_of_dir hdir
  have hlen : dir.text.length < (dir.join s).text.length := Path.length_join hs hne
  -- the joined path has one component more and is longer, so it gets at least one more fuel
  obtain ⟨k, hk, hfuel⟩ : ∃ k, 1 ≤ k ∧
      ((dir.join s).parts.filter (· ≠ "")).length + 40 * ((dir.join s).text.length + 2) + 4096 =
      (dir.parts.filter (· ≠ "")).length + 40 * (dir.text.length + 2) + 4096 + k := by
    refine ⟨_, ?_, (Nat.add_sub_of_le ?_).symm⟩ <;>
      simp only [Path.comps_join hdne hs hne, List.length_append, List.length_singleton] <;> omega
  rw [resolve_of_walkable hw, Path.mk_text, hfuel, Path.comps_join hdne hs hne, Path.startsWith_join hdne hs,
    Path.endsWith_join hs hne, hj [s] (by simp) k follow false]
  exact ⟨j + k - 1, links, by congr 1; omega⟩

theorem isDir_join {t : Tree} {cwd pw : List String} {dir : Path} {s : String}
    (hdir : t.resolve cwd dir.text true = .ok (.found pw .dir)) (hs : '/' ∉ s.toList)
    (hne : s ≠ "") (hw : Walkable (dir.join s).text) (hdot : s ≠ "." ∧ s ≠ "..")
    (hlen : s.utf8ByteSize ≤ 255) (hget : t.get? (pw ++ [s]) = some .dir) :
    t.isDir cwd (dir.join s).text = true := by
  obtain ⟨n, links, hres⟩ := resolve_join hdir hs hne hw true
  simp [isDir, stat, hres, walk, hdot.1, hdot.2, Nat.not_lt.mpr hlen, hget]

/-- A write below a directory that holds at most a file under that name lands on that name:
the file `pw ++ [s]` is set, and the path resolves to it afterwards. -/
theorem writeFile_join {t t' : Tree} {cwd pw : List String} {dir : Path} {s : String}
    {bytes : List UInt8} (hdir : t.resolve cwd dir.text true = .ok (.found pw .dir))
    (hs : '/' ∉ s.toList) (hne : s ≠ "") (hfile : ∀ e, t.get? (pw ++ [s]) = some e → e.kind = .file)
    (h : t.writeFile cwd (dir.join s).text bytes = .ok t') :
    ∃ mode, t' = t.set (pw ++ [s]) (.file bytes mode) ∧
      t'.resolve cwd (dir.join s).text true = .ok (.found (pw ++ [s]) (.file bytes mode)) := by
  have hw : Walkable (dir.join s).text := by
    cases hr : t.resolve cwd (dir.join s).text true with
    | error e => simp [writeFile, hr] at h
    | ok r => exact walkable_of_resolve hr
  obtain ⟨n, links, hres⟩ := resolve_join hdir hs hne hw true
  have hend : (dir.join s).text.endsWith "/" = false := Path.endsWith_join hs hne
  unfold writeFile at h
  rw [hres] at h
  by_cases hdot : s = "."
  · simp [walk, hdot] at h
  by_cases hdd : s = ".."
  · simp [walk, hdd] at h
  by_cases hlen : s.utf8ByteSize > 255
  · simp [walk, hdot, hdd, hlen] at h
  cases hget : t.get? (pw ++ [s]) with
  | none =>
    have hres' : t.resolve cwd (dir.join s).text true = .ok (.absent pw s) := by
      rw [hres]
      simp [walk, hdot, hdd, hlen, hget]
    simp [walk, hdot, hdd, hlen, hget, hend] at h
    subst h
    refine ⟨420, rfl, ?_⟩
    rw [resolve_set_file hfile hres']
    simp [Resolved.afterWrite, hend]
  | some e =>
    obtain ⟨b, m, rfl⟩ : ∃ b m, e = .file b m := by
      have := hfile e hget
      cases e <;> simp_all [Entry.kind]
    have hres' : t.resolve cwd (dir.join s).text true = .ok (.found (pw ++ [s]) (.file b m)) := by
      rw [hres]
      simp [walk, hdot, hdd, hlen, hget]
    simp [walk, hdot, hdd, hlen, hget] at h
    subst h
    refine ⟨m, rfl, ?_⟩
    rw [resolve_set_file hfile hres']
    simp [Resolved.afterWrite, Entry.kind]

end Fs.Tree

end TestDispatch
