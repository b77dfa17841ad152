import Mathlib
import TestDispatch.Proofs.Fs.Relative
/-! The component view of a path against its text: rebuilt paths split into the same components,
normalised roots keep them, and `~` expands below or away from the home directory. -/
namespace TestDispatch

/-- The components that can follow the start of a path: `..` and proper names. -/
def Component.InBody : Component → Prop
  | .parentDir => True
  | .normal n => Path.ProperName n
  | _ => False

namespace Component

variable {c : Component}

theorem InBody.bodyComponent_text (hc : c.InBody) : Path.bodyComponent c.text = some c := by
  cases c with
  | parentDir => rfl
  | normal n => simp [Path.bodyComponent, text, hc.1, hc.2.2.1, hc.2.2.2]
  | rootDir | curDir => exact hc.elim

theorem InBody.slash_not_mem (hc : c.InBody) : '/' ∉ c.text.toList := by
  cases c with
  | parentDir => decide
  | normal n => exact hc.2.1
  | rootDir | curDir => exact hc.elim

theorem InBody.text_ne (hc : c.InBody) : c.text ≠ "" := by
  intro h
  simpa [h, Path.bodyComponent] using hc.bodyComponent_text

end Component

namespace Path

@[simp] theorem parts_empty : (Path.mk "").parts = [""] := rfl

@[simp] theorem components_empty : (Path.mk "").components = [] := rfl

theorem components_root : (Path.mk "/").components = [.rootDir] := by cbv

theorem components_dot : (Path.mk ".").components = [.curDir] := by cbv

theorem text_ne_of_components_ne_nil {p : Path} (h : p.components ≠ []) : p.text ≠ "" := by
  intro he
  apply h
  rw [← mk_text p, he, components_empty]

theorem isAbsolute_append {a : String} (ha : a ≠ "") (b : String) :
    (Path.mk (a ++ b)).isAbsolute = (Path.mk a).isAbsolute :=
  startsWith_slash_append ha b

theorem slash_not_mem_of_mem_parts {p : Path} {s : String} (hs : s ∈ p.parts) :
    '/' ∉ s.toList := by
  obtain ⟨l, hl, rfl⟩ := List.mem_map.mp hs
  simpa using not_mem_of_mem_splitOn hl

theorem inBody_of_bodyComponent {s : String} {c : Component} (h : bodyComponent s = some c)
    (hs : '/' ∉ s.toList) : c.InBody := by
  unfold bodyComponent at h
  split_ifs at h with h1 h2
  · cases h
    trivial
  · cases h
    simp only [not_or] at h1
    exact ⟨h1.1, hs, h1.2, h2⟩

theorem inBody_of_mem_body {p : Path} {c : Component}
    (h : c ∈ p.parts.filterMap bodyComponent) : c.InBody := by
  obtain ⟨s, hs, hc⟩ := List.mem_filterMap.mp h
  exact inBody_of_bodyComponent hc (slash_not_mem_of_mem_parts hs)

theorem components_cases (p : Path) :
    p.components = .rootDir :: p.parts.filterMap bodyComponent ∨
      p.components = .curDir :: p.parts.filterMap bodyComponent ∨
      p.components = p.parts.filterMap bodyComponent := by
  unfold components
  split_ifs <;> simp

theorem not_startsWith_dot_slash {s : String} (hs : '/' ∉ s.toList) :
    s.startsWith "./" = false := by
  simp [← String.startsWith_toSlice]
  rintro ⟨rest, h⟩
  exact hs (by simp [← h])

theorem components_text_of_inBody {c : Component} (hc : c.InBody) :
    (Path.mk c.text).components = [c] := by
  have hparts : (Path.mk c.text).parts = [c.text] := by
    simp [parts, List.splitOn_eq_singleton hc.slash_not_mem]
  have habs : (Path.mk c.text).isAbsolute = false := not_startsWith_slash hc.slash_not_mem
  have hdot : c.text ≠ "." := by
    intro h
    simpa [h, bodyComponent] using hc.bodyComponent_text
  simp [components, hparts, habs, hdot, not_startsWith_dot_slash hc.slash_not_mem,
    hc.bodyComponent_text]

theorem components_joinAll_inBody {dir : Path} (hdir : dir.text ≠ "") {cs : List Component}
    (hcs : ∀ c ∈ cs, c.InBody) :
    (dir.joinAll (cs.map Component.text)).components = dir.components ++ cs := by
  induction cs generalizing dir with
  | nil => simp [joinAll]
  | cons c cs ih =>
    have hc := hcs c List.mem_cons_self
    have hjoin : (dir.join c.text).components = dir.components ++ [c] := by
      rw [components_join_plain hdir hc.slash_not_mem hc.text_ne, hc.bodyComponent_text]
      rfl
    rw [List.map_cons, joinAll_cons,
      ih (text_join_ne hc.slash_not_mem hc.text_ne) fun x hx => hcs x (List.mem_cons_of_mem c hx),
      hjoin, List.append_assoc, List.singleton_append]

theorem empty_push (q : Path) : (Path.mk "").push q = q := by
  unfold push
  split_ifs with habs hsep
  · rfl
  · simp
  · exact absurd (Or.inl rfl) hsep

theorem ofComponents_cons (c : Component) (cs : List Component) :
    ofComponents (c :: cs) = (Path.mk c.text).joinAll (cs.map Component.text) := by
  rw [ofComponents, List.foldl_cons, empty_push, joinAll, List.foldl_map]
  rfl

theorem components_ofComponents_cons {c : Component} (hc : (Path.mk c.text).components = [c])
    {cs : List Component} (hcs : ∀ x ∈ cs, x.InBody) :
    (ofComponents (c :: cs)).components = c :: cs := by
  have hne : (Path.mk c.text).text ≠ "" := text_ne_of_components_ne_nil (by simp [hc])
  rw [ofComponents_cons, components_joinAll_inBody hne hcs, hc]
  rfl

/-- A path rebuilt from its components has the same components. -/
theorem components_ofComponents (p : Path) :
    (ofComponents p.components).components = p.components := by
  have hbody : ∀ c ∈ p.parts.filterMap bodyComponent, c.InBody :=
    fun _ hc => inBody_of_mem_body hc
  rcases components_cases p with h | h | h <;> rw [h]
  · exact components_ofComponents_cons (c := .rootDir) components_root hbody
  · exact components_ofComponents_cons (c := .curDir) components_dot hbody
  · cases hb : p.parts.filterMap bodyComponent with
    | nil => exact components_empty
    | cons c cs =>
      rw [hb] at hbody
      exact components_ofComponents_cons (components_text_of_inBody (hbody c List.mem_cons_self))
        fun x hx => hbody x (List.mem_cons_of_mem c hx)

theorem parts_slash_append (x y : String) :
    (Path.mk (x ++ "/" ++ y)).parts = (Path.mk x).parts ++ (Path.mk y).parts := by
  simp only [parts, String.toList_append, toList_slash, List.append_assoc, List.singleton_append,
    List.splitOn_append_cons_self, List.map_append]

theorem curDir_append_slash {t : String} (ht : t ≠ "") :
    (t ++ "/" = "." ∨ (t ++ "/").startsWith "./" = true) ↔
      (t = "." ∨ t.startsWith "./" = true) := by
  obtain ⟨a, rest, hl⟩ := List.exists_cons_of_ne_nil (by simpa using ht : t.toList ≠ [])
  have hdot : ".".toList = ['.'] := rfl
  have hdotslash : "./".toList = ['.', '/'] := rfl
  simp only [String.ext_iff, String.startsWith_string_iff, String.toList_append, hl, toList_slash,
    hdot, hdotslash]
  rcases rest with _ | ⟨b, rest⟩
  · simp [eq_comm]
  · simp

theorem components_append_slash {q : Path} (hq : q.text ≠ "") :
    (Path.mk (q.text ++ "/")).components = q.components := by
  have hparts : (Path.mk (q.text ++ "/")).parts = q.parts ++ [""] := by
    simpa using parts_slash_append q.text ""
  have habs : (Path.mk (q.text ++ "/")).isAbsolute = q.isAbsolute := isAbsolute_append hq "/"
  have hcur := curDir_append_slash hq
  have hbody : (Path.mk (q.text ++ "/")).parts.filterMap bodyComponent =
      q.parts.filterMap bodyComponent := by
    simp [hparts, bodyComponent]
  unfold components
  simp only [hbody, habs]
  by_cases ha : q.isAbsolute = true
  · rw [if_pos ha, if_pos ha]
  · rw [if_neg ha, if_neg ha]
    by_cases hc : q.text = "." ∨ q.text.startsWith "./" = true
    · rw [if_pos (hcur.mpr hc), if_pos hc]
    · rw [if_neg (mt hcur.mp hc), if_neg hc]

theorem splitOn_cons_of_ne {a : Char} (ha : a ≠ '/') (rest : List Char) :
    (a :: rest).splitOn '/' = (rest.splitOn '/').modifyHead (a :: ·) := by
  simp [List.splitOn_cons_eq_if_modifyHead, ha]

theorem exists_splitOn_eq_cons (rest : List Char) : ∃ w ws, rest.splitOn '/' = w :: ws :=
  List.exists_cons_of_ne_nil (List.splitOn_ne_nil '/' rest)

theorem curDir_of_splitOn_dot {t : String} {rest : List Char} {ws : List (List Char)}
    (hl : t.toList = '.' :: rest) (hsplit : rest.splitOn '/' = [] :: ws) :
    t = "." ∨ t.startsWith "./" = true := by
  rcases rest with _ | ⟨b, rest⟩
  · left
    exact String.ext (by simp [hl])
  · by_cases hb : b = '/'
    · right
      simp [String.startsWith_string_iff, hl, hb, show "./".toList = ['.', '/'] from rfl]
    · obtain ⟨w', ws', h'⟩ := exists_splitOn_eq_cons rest
      simp [splitOn_cons_of_ne hb, h'] at hsplit

/-- A path that is not empty has a component: the root, a leading `.`, or the component of its
first part. -/
theorem components_ne_nil {p : Path} (hp : p.text ≠ "") : p.components ≠ [] := by
  obtain ⟨a, rest, hl⟩ := List.exists_cons_of_ne_nil (by simpa using hp : p.text.toList ≠ [])
  unfold components
  dsimp only
  split_ifs with habs hcur
  · simp
  · simp
  · have ha : a ≠ '/' := by
      rintro rfl
      apply habs
      simp [isAbsolute, String.startsWith_string_iff, hl, toList_slash]
    obtain ⟨w, ws, hsplit⟩ := exists_splitOn_eq_cons rest
    have hfirst : p.parts = String.ofList (a :: w) :: ws.map String.ofList := by
      simp [parts, hl, splitOn_cons_of_ne ha, hsplit]
    have hne : String.ofList (a :: w) ≠ "" := by simp [String.ext_iff]
    -- the first part is `.` only when the path is `.` or starts with `./`
    have hdot : String.ofList (a :: w) ≠ "." := by
      intro h
      obtain ⟨rfl, rfl⟩ : a = '.' ∧ w = [] := by simpa [String.ext_iff] using h
      exact hcur (curDir_of_splitOn_dot hl hsplit)
    rw [hfirst, List.filterMap_cons, bodyComponent, if_neg (not_or.mpr ⟨hne, hdot⟩)]
    split_ifs <;> simp

theorem normalizeRoot_eq_of_components_eq {p q : Path} (h : p.components = q.components) :
    p.normalizeRoot = q.normalizeRoot := by
  unfold normalizeRoot
  rw [h]

theorem components_normalizeRoot {p : Path} (hp : p.text ≠ "") :
    p.normalizeRoot.components = p.components := by
  have hrebuilt := components_ofComponents p
  have hne : (ofComponents p.components).text ≠ "" := by
    apply text_ne_of_components_ne_nil
    rw [hrebuilt]
    exact components_ne_nil hp
  unfold normalizeRoot
  dsimp only
  split
  · exact hrebuilt
  · rw [components_append_slash hne, hrebuilt]

theorem normalizeRoot_empty : (Path.mk "").normalizeRoot = ⟨"/"⟩ := rfl

theorem normalizeRoot_normalizeRoot (p : Path) :
    p.normalizeRoot.normalizeRoot = p.normalizeRoot := by
  by_cases hp : p.text = ""
  · rw [← mk_text p, hp, normalizeRoot_empty]
    cbv
  · exact normalizeRoot_eq_of_components_eq (components_normalizeRoot hp)

/-- A normalised root ends with `/`, normalising it again changes nothing, and it has the
components of the path it came from, except that the empty path becomes `/`. -/
theorem normalizeRoot_keeps_components (p : Path) :
    p.normalizeRoot.text.endsWith "/" = true ∧ p.normalizeRoot.normalizeRoot = p.normalizeRoot ∧
      (p.text ≠ "" → p.normalizeRoot.components = p.components) ∧
      (p.text = "" → p.normalizeRoot = ⟨"/"⟩) := by
  refine ⟨endsWith_normalizeRoot p, normalizeRoot_normalizeRoot p, components_normalizeRoot,
    fun hp => ?_⟩
  rw [← mk_text p, hp]
  exact normalizeRoot_empty

theorem normalizeRoot_keeps_components_sample :
    (Path.mk "/work/./project/.").normalizeRoot.components =
        (Path.mk "/work/./project/.").components ∧
      (Path.mk "").normalizeRoot = ⟨"/"⟩ :=
  ⟨(normalizeRoot_keeps_components _).2.2.1 (by decide),
    (normalizeRoot_keeps_components _).2.2.2 rfl⟩

theorem text_ne_of_isAbsolute {p : Path} (h : p.isAbsolute = true) : p.text ≠ "" := by
  intro he
  rw [isAbsolute, he] at h
  exact absurd h (by simp)

theorem exists_eq_append_slash {t : String} (h : t.endsWith "/" = true) : ∃ x, t = x ++ "/" := by
  have hsuf : ['/'] <:+ t.toList := by simpa [← String.endsWith_toSlice] using h
  obtain ⟨l, hl⟩ := hsuf
  exact ⟨String.ofList l, String.ext (by simp [← hl, toList_slash])⟩

theorem components_slash_append {x : String} (habs : (Path.mk (x ++ "/")).isAbsolute = true)
    (r : String) :
    (Path.mk (x ++ "/" ++ r)).components =
      (Path.mk (x ++ "/")).components ++ (Path.mk r).parts.filterMap bodyComponent := by
  have habs' : (Path.mk (x ++ "/" ++ r)).isAbsolute = true :=
    (isAbsolute_append (text_ne_of_isAbsolute habs) r).trans habs
  have hx : (Path.mk (x ++ "/")).parts = (Path.mk x).parts ++ [""] := by
    simpa using parts_slash_append x ""
  simp [components, habs, habs', parts_slash_append, hx, bodyComponent]

/-- A relative text joined to an absolute path adds the body of the text to the path's
components. -/
theorem components_join_relative {home : Path} (habs : home.isAbsolute = true) {r : String}
    (hr : r.startsWith "/" = false) :
    (home.join r).components = home.components ++ (Path.mk r).parts.filterMap bodyComponent := by
  have hne := text_ne_of_isAbsolute habs
  rw [← mk_text (home.join r), join_text_of_relative hr]
  split
  -- a home directory that already ends with `/` gets no second one
  · rename_i hend
    obtain ⟨x, hx⟩ := exists_eq_append_slash (hend.resolve_left hne)
    have hhome : home = ⟨x ++ "/"⟩ := by rw [← mk_text home, hx]
    subst hhome
    exact components_slash_append habs r
  · have habs' : (Path.mk (home.text ++ "/")).isAbsolute = true :=
      (isAbsolute_append hne "/").trans habs
    rw [components_slash_append habs' r, components_append_slash hne]

theorem expandTilde_tilde (home : Path) : home.expandTilde "~" = home := by
  simp [expandTilde]

theorem expandTilde_tilde_slash (home : Path) (r : String) :
    home.expandTilde ("~/" ++ r) = home.join r := by
  have hne : "~/" ++ r ≠ "~" := by
    intro h
    have hlen := congrArg String.length h
    have h2 : "~/".length = 2 := rfl
    have h1 : "~".length = 1 := rfl
    simp only [String.length_append, h2, h1] at hlen
    omega
  have hstart : ("~/" ++ r).startsWith "~/" = true := by
    simp [String.startsWith_string_iff]
  have hdrop : (("~/" ++ r).drop 2).toString = r := by
    apply String.ext
    simp
  simp only [expandTilde, hne, hstart, hdrop, if_false, if_true]

theorem expandTilde_of_not_tilde (home : Path) {s : String} (h1 : s ≠ "~")
    (h2 : s.startsWith "~/" = false) : home.expandTilde s = ⟨s⟩ := by
  simp [expandTilde, h1, h2]

/-- Expanding `~` against an absolute home directory: `~` is the home directory; `~/r` with a
relative `r` is the home directory, a `/` unless it already ends with one, and `r`, so that its
components are those of the home directory followed by the body of `r`; `~/r` with an absolute `r`
is `r`; every other text is kept. -/
theorem expandTilde_joins_home (home : Path) (hhome : home.isAbsolute = true) (s : String) :
    (s = "~" → home.expandTilde s = home) ∧
      (∀ r, s = "~/" ++ r → r.startsWith "/" = false →
        (home.expandTilde s).text =
            (if home.text.endsWith "/" = true then home.text ++ r else home.text ++ "/" ++ r) ∧
          (home.expandTilde s).components =
            home.components ++ (Path.mk r).parts.filterMap bodyComponent) ∧
      (∀ r, s = "~/" ++ r → r.startsWith "/" = true → home.expandTilde s = ⟨r⟩) ∧
      (s ≠ "~" → s.startsWith "~/" = false → home.expandTilde s = ⟨s⟩) := by
  have hne := text_ne_of_isAbsolute hhome
  refine ⟨fun h => h ▸ expandTilde_tilde home, fun r hs hr => ?_, fun r hs hr => ?_,
    expandTilde_of_not_tilde home⟩
  · rw [hs, expandTilde_tilde_slash, join_text_of_relative hr]
    exact ⟨by simp [hne], components_join_relative hhome hr⟩
  · rw [hs, expandTilde_tilde_slash]
    simp [join, push, isAbsolute, hr]

theorem expandTilde_home_bin :
    (Path.mk "/home/oracle").isAbsolute = true ∧
      ((Path.mk "/home/oracle").expandTilde ("~/" ++ "bin/isolate")).text =
          (if "/home/oracle".endsWith "/" = true then "/home/oracle" ++ "bin/isolate"
            else "/home/oracle" ++ "/" ++ "bin/isolate") ∧
        ((Path.mk "/home/oracle").expandTilde ("~/" ++ "bin/isolate")).components =
          (Path.mk "/home/oracle").components ++
            (Path.mk "bin/isolate").parts.filterMap bodyComponent :=
  have habs : (Path.mk "/home/oracle").isAbsolute = true := by cbv
  ⟨habs, (expandTilde_joins_home _ habs _).2.1 "bin/isolate" rfl (by cbv)⟩

/-- With an absolute rest, `~//etc` leaves the home directory: it is `/etc`, with two
components, where the home directory, `/` and the rest have four and the home directory alone
has three, so it neither is that path nor lies below the home directory. -/
theorem expandTilde_absolute_rest_leaves_home :
    (Path.mk "/home/oracle").expandTilde "~//etc" = ⟨"/etc"⟩ ∧
      ((Path.mk "/home/oracle").expandTilde "~//etc").components ≠
        (Path.mk ("/home/oracle" ++ "/" ++ "/etc")).components ∧
      ¬(Path.mk "/home/oracle").components <+:
        ((Path.mk "/home/oracle").expandTilde "~//etc").components := by
  have hexp : (Path.mk "/home/oracle").expandTilde "~//etc" = ⟨"/etc"⟩ := by cbv
  have hlen : ((Path.mk "/home/oracle").expandTilde "~//etc").components.length = 2 := by
    rw [hexp]
    cbv
  have hjoined : (Path.mk ("/home/oracle" ++ "/" ++ "/etc")).components.length = 4 := by cbv
  have hhome : (Path.mk "/home/oracle").components.length = 3 := by cbv
  refine ⟨hexp, fun h => ?_, fun hpre => ?_⟩
  · have := congrArg List.length h
    omega
  · have := hpre.length_le
    omega

end Path

end TestDispatch
