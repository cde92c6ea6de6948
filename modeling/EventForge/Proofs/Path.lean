import EventForge.Path
import EventForge.Proofs.Text.Split
import Mathlib.Data.Set.List

/-!
# Joining paths

Joining is associative. A relative path adds its own steps to those of the path that it is joined
to, an absolute one replaces them; so a joined path stays below its start exactly when both parts do
(`Path.contained_join`). The path above another one has all of its steps but the last.
-/

namespace EventForge.Path

open Text (splitOn splitOn_ne_nil splitOn_append_sep joined joined_splitOn splitOn_joined
  not_mem_of_mem_splitOn)

variable {p q r dir : Path}

@[ext]
theorem ext {p q : Path} (h : p.text.toList = q.text.toList) : p = q := by
  cases p
  cases q
  exact congrArg Path.mk (String.toList_inj.1 h)

/-- What stands between a path and a relative path joined to it. -/
def glue (p : Path) : List Char :=
  if p.text.toList = [] ∨ p.text.toList.getLast? = some '/' then [] else ['/']

theorem isAbsolute_iff : p.isAbsolute ↔ p.text.toList.head? = some '/' := by
  simp [isAbsolute]

theorem join_absolute (p : Path) (h : q.isAbsolute) : p.join q = q := by
  rw [join, if_pos h]

theorem toList_join (p : Path) (h : ¬ q.isAbsolute) :
    (p.join q).text.toList = p.text.toList ++ p.glue ++ q.text.toList := by
  rw [join, if_neg h, glue]
  split <;> simp

theorem nil_join (q : Path) : join ⟨""⟩ q = q := by
  simp [join]

theorem isAbsolute_join : (p.join q).isAbsolute ↔ q.isAbsolute ∨ p.isAbsolute := by
  by_cases h : q.isAbsolute
  · simp [join_absolute p h, h]
  · rw [isAbsolute_iff, isAbsolute_iff (p := p), toList_join p h, glue]
    have h' : q.text.toList.head? ≠ some '/' := fun e => h (isAbsolute_iff.2 e)
    cases hp : p.text.toList with
    | nil => simpa [h, hp] using h'
    | cons c cs => simp [h]

/-- Joining decides on the slash by the last part that is not empty. -/
theorem glue_join (p : Path) (h : ¬ q.isAbsolute) : (p.join q).glue = q.glue := by
  rw [glue, glue, toList_join p h]
  cases hq : q.text.toList with
  | nil =>
    rw [List.append_nil, glue]
    by_cases hp : p.text.toList = [] ∨ p.text.toList.getLast? = some '/'
    · rw [if_pos hp, List.append_nil, if_pos hp, if_pos (.inl rfl)]
    · rw [if_neg hp, if_pos (.inr (by simp)), if_pos (.inl rfl)]
  | cons c cs =>
    have hne : p.text.toList ++ p.glue ++ (c :: cs) ≠ [] := by simp
    simp only [hne, List.getLast?_append, List.getLast?_cons, Option.some_or, reduceCtorEq,
      false_or]

theorem join_assoc (p q r : Path) : (p.join q).join r = p.join (q.join r) := by
  by_cases hr : r.isAbsolute
  · rw [join_absolute _ hr, join_absolute q hr, join_absolute p hr]
  · by_cases hq : q.isAbsolute
    · rw [join_absolute p hq, join_absolute p (isAbsolute_join.2 (.inr hq))]
    · have hqr : ¬ (q.join r).isAbsolute := fun h => (isAbsolute_join.1 h).elim hr hq
      refine ext ?_
      rw [toList_join _ hr, toList_join p hq, glue_join p hq, toList_join p hqr, toList_join q hr]
      simp only [List.append_assoc]

theorem join_extend (p q : Path) (pieces : List String) :
    p.join (q.extend pieces) = (p.join q).extend pieces := by
  induction pieces generalizing q with
  | nil => rfl
  | cons piece pieces ih =>
    have hstep : ∀ r : Path, r.extend (piece :: pieces) = (r.join ⟨piece⟩).extend pieces :=
      fun _ => rfl
    rw [hstep, hstep, ih, join_assoc]

theorem join_text_ne (p : Path) (h : q.text ≠ "") : (p.join q).text ≠ "" := by
  by_cases hq : q.isAbsolute
  · rwa [join_absolute p hq]
  · intro he
    have hnil : (p.join q).text.toList = [] := by rw [he]; rfl
    rw [toList_join p hq] at hnil
    exact h (String.toList_eq_nil_iff.1 (List.append_eq_nil_iff.1 hnil).2)

/-! ## Steps -/

/-- The steps that a relative path adds to the path that it is joined to. -/
def steps (p : Path) : List Component := p.components.filter (· ≠ .here)

theorem innerComponent?_eq_up {piece : List Char} :
    innerComponent? piece = some .up ↔ piece = ['.', '.'] := by
  rw [innerComponent?]
  split
  · next h => rcases h with rfl | rfl <;> simp
  · split <;> simp_all

theorem innerComponent?_eq_some {piece : List Char} {c : Component}
    (h : innerComponent? piece = some c) : c = .up ∨ ∃ n, c = .name n := by
  rw [innerComponent?] at h
  split at h
  · cases h
  · split at h
    · exact .inl (Option.some.inj h).symm
    · exact .inr ⟨_, (Option.some.inj h).symm⟩

theorem exists_pieces (p : Path) : ∃ first rest, splitOn '/' p.text.toList = first :: rest :=
  List.exists_cons_of_ne_nil (splitOn_ne_nil _ _)

theorem components_of_splitOn {first : List Char} {rest : List (List Char)}
    (h : splitOn '/' p.text.toList = first :: rest) :
    p.components =
      (if p.isAbsolute then [.root]
        else if first = ['.'] then [.here] else (innerComponent? first).toList) ++
        rest.filterMap innerComponent? := by
  rw [components, h]

theorem filterMap_inner_ne_here (pieces : List (List Char)) :
    (pieces.filterMap innerComponent?).filter (· ≠ .here) = pieces.filterMap innerComponent? := by
  refine List.filter_eq_self.2 fun c hc => ?_
  obtain ⟨piece, -, hpiece⟩ := List.mem_filterMap.1 hc
  rcases innerComponent?_eq_some hpiece with rfl | ⟨n, rfl⟩ <;> simp

/-- A relative path has the steps of its pieces, behind a leading dot if it has one. -/
theorem components_relative (h : ¬ p.isAbsolute) :
    p.steps = (splitOn '/' p.text.toList).filterMap innerComponent? ∧
      (p.components = p.steps ∨ p.components = .here :: p.steps) := by
  obtain ⟨first, rest, hs⟩ := p.exists_pieces
  have hc := components_of_splitOn hs
  rw [if_neg h] at hc
  rw [hs]
  by_cases hfirst : first = ['.']
  · have hinner : innerComponent? first = none := by simp [innerComponent?, hfirst]
    rw [if_pos hfirst] at hc
    have hsteps : p.steps = rest.filterMap innerComponent? := by
      rw [steps, hc, List.filter_append, filterMap_inner_ne_here]
      simp
    refine ⟨?_, .inr ?_⟩
    · rw [hsteps, List.filterMap_cons_none hinner]
    · rw [hsteps, hc, List.singleton_append]
  · rw [if_neg hfirst] at hc
    have hall : p.components = (first :: rest).filterMap innerComponent? := by
      rw [hc, List.filterMap_cons]
      cases innerComponent? first <;> simp
    have hsteps : p.steps = p.components := by
      rw [steps, hall, filterMap_inner_ne_here]
    exact ⟨hsteps.trans hall, .inl hsteps.symm⟩

/-- What follows a slash adds its steps to those of what stands before it, or to the root. -/
theorem components_append_slash (cs ds : List Char) :
    (Path.mk (String.ofList (cs ++ '/' :: ds))).components =
      (if cs = [] then [.root] else (Path.mk (String.ofList cs)).components) ++
        (splitOn '/' ds).filterMap innerComponent? := by
  obtain ⟨first, rest, hs⟩ := List.exists_cons_of_ne_nil (splitOn_ne_nil '/' cs)
  have hlong : splitOn '/' (Path.mk (String.ofList (cs ++ '/' :: ds))).text.toList
      = first :: (rest ++ splitOn '/' ds) := by
    rw [String.toList_ofList, splitOn_append_sep, hs, List.cons_append]
  rw [components_of_splitOn hlong]
  cases cs with
  | nil =>
    obtain ⟨rfl, rfl⟩ := List.cons.inj hs
    simp [isAbsolute]
  | cons c cs =>
    have hshort : splitOn '/' (Path.mk (String.ofList (c :: cs))).text.toList = first :: rest := by
      rw [String.toList_ofList, hs]
    rw [if_neg (List.cons_ne_nil c cs), components_of_splitOn hshort, List.filterMap_append,
      List.append_assoc]
    simp [isAbsolute]

/-- A relative path adds its steps to the path it is joined to. -/
theorem components_join (hp : p.text.toList ≠ []) (hq : ¬ q.isAbsolute) :
    (p.join q).components = p.components ++ q.steps := by
  rw [(components_relative hq).1]
  by_cases hslash : p.text.toList.getLast? = some '/'
  · obtain ⟨cs, hcs⟩ := List.getLast?_eq_some_iff.1 hslash
    have hp' : p = ⟨String.ofList (cs ++ ['/'])⟩ := ext (by rw [hcs, String.toList_ofList])
    have hjoin : p.join q = ⟨String.ofList (cs ++ '/' :: q.text.toList)⟩ := by
      refine ext ?_
      rw [toList_join p hq, glue, if_pos (.inr hslash), hcs, String.toList_ofList]
      simp
    rw [hjoin, hp', components_append_slash, components_append_slash, List.append_assoc]
    simp [splitOn, innerComponent?]
  · have hp' : p = ⟨String.ofList p.text.toList⟩ := ext (by rw [String.toList_ofList])
    have hjoin : p.join q = ⟨String.ofList (p.text.toList ++ '/' :: q.text.toList)⟩ := by
      refine ext ?_
      rw [toList_join p hq, glue, if_neg (by simp [hp, hslash]), String.toList_ofList]
      simp
    rw [hjoin, components_append_slash, if_neg hp, ← hp']

/-- Joining to the path of no text adds nothing in front. -/
theorem join_of_empty (hp : p.text.toList = []) : p.join q = q := by
  have hp' : p = ⟨""⟩ := ext hp
  rw [hp', nil_join]

theorem steps_join (p : Path) (hq : ¬ q.isAbsolute) : (p.join q).steps = p.steps ++ q.steps := by
  by_cases hp : p.text.toList = []
  · have hnil : p.steps = [] := by
      rw [ext (q := ⟨""⟩) hp]
      decide
    rw [join_of_empty hp, hnil, List.nil_append]
  · rw [steps, components_join hp hq, List.filter_append, steps, steps, List.filter_filter]
    simp

theorem relative_of_no_slash {n : String} (h : '/' ∉ n.toList) : ¬ (Path.mk n).isAbsolute := by
  rw [isAbsolute_iff]
  exact fun hhead => h (List.mem_of_head? hhead)

/-- A name without a slash is one step at most. -/
theorem steps_of_no_slash {n : String} (h : '/' ∉ n.toList) :
    (Path.mk n).steps = (innerComponent? n.toList).toList := by
  have hsplit : splitOn '/' (Path.mk n).text.toList = [n.toList] := Text.splitOn_of_not_mem h
  rw [(components_relative (relative_of_no_slash h)).1, hsplit, List.filterMap_cons]
  cases innerComponent? n.toList <;> rfl

/-- A name that is neither dot is a step of its own. -/
theorem steps_name {n : String} (hslash : '/' ∉ n.toList) (hlong : 2 < n.toList.length) :
    (Path.mk n).steps = [.name n] := by
  have hinner : innerComponent? n.toList = some (.name n) := by
    rw [innerComponent?, if_neg, if_neg, String.ofList_toList]
    · intro h
      simp [h] at hlong
    · rintro (h | h) <;> simp [h] at hlong
  rw [steps_of_no_slash hslash, hinner, Option.toList_some]

/-- The only step of a name without a slash is that name. -/
theorem eq_of_name_mem_steps {n n' : String} (h : '/' ∉ n.toList)
    (hmem : .name n' ∈ (Path.mk n).steps) : n = n' := by
  rw [steps_of_no_slash h, Option.mem_toList, innerComponent?] at hmem
  split at hmem
  · cases hmem
  · split at hmem
    · cases hmem
    · rw [String.ofList_toList] at hmem
      exact Component.name.inj (Option.some.inj hmem)

/-- A name without a slash adds one step. -/
theorem components_join_name (hp : p.text ≠ "") {n : String} (hslash : '/' ∉ n.toList)
    (hlong : 2 < n.toList.length) : (p.join ⟨n⟩).components = p.components ++ [.name n] := by
  rw [components_join (fun h => hp (String.toList_eq_nil_iff.1 h)) (relative_of_no_slash hslash),
    steps_name hslash hlong]

theorem exists_map_name {cs : List Component} (h : ∀ c ∈ cs, ∃ n, c = .name n) :
    ∃ names : List String, cs = names.map .name := by
  have hrange : cs ∈ Set.range (List.map Component.name) := by
    rw [Set.range_list_map]
    exact fun c hc => (h c hc).imp fun _ => Eq.symm
  exact hrange.imp fun _ => Eq.symm

theorem mem_steps_relative (h : ¬ p.isAbsolute) {c : Component} (hc : c ∈ p.steps) :
    c = .up ∨ ∃ n, c = .name n := by
  rw [(components_relative h).1] at hc
  obtain ⟨piece, -, hpiece⟩ := List.mem_filterMap.1 hc
  exact innerComponent?_eq_some hpiece

/-- A name in a path is neither the step up nor a slash. -/
theorem name_mem_steps {n : String} (h : ¬ p.isAbsolute) (hn : .name n ∈ p.steps) :
    n ≠ "/" ∧ n ≠ ".." := by
  rw [(components_relative h).1] at hn
  obtain ⟨piece, hpiece, hinner⟩ := List.mem_filterMap.1 hn
  have hslash := not_mem_of_mem_splitOn hpiece
  rw [innerComponent?] at hinner
  split at hinner
  · cases hinner
  · split at hinner
    · cases hinner
    · next hup =>
      obtain rfl := Component.name.inj (Option.some.inj hinner)
      rw [ne_eq, ne_eq, ← String.toList_inj, ← String.toList_inj, String.toList_ofList]
      refine ⟨?_, hup⟩
      rintro rfl
      exact hslash (by decide)

/-- A path is absolute exactly when it starts at the root. -/
theorem root_mem_components : .root ∈ p.components ↔ p.isAbsolute := by
  by_cases h : p.isAbsolute
  · obtain ⟨first, rest, hs⟩ := p.exists_pieces
    rw [components_of_splitOn hs, if_pos h]
    simp [h]
  · have hsteps : .root ∉ p.steps := by
      intro hr
      rcases mem_steps_relative h hr with h' | ⟨n, h'⟩ <;> cases h'
    rcases (components_relative h).2 with hc | hc <;> rw [hc] <;> simp [h, hsteps]

/-- Only the first step of a path can be the root or a dot. -/
theorem exists_start (p : Path) :
    ∃ start rest, p.components = start ++ rest ∧
      (start = [] ∨ start = [.root] ∨ start = [.here]) ∧ ∀ c ∈ rest, c = .up ∨ ∃ n, c = .name n := by
  by_cases h : p.isAbsolute
  · obtain ⟨first, rest, hs⟩ := p.exists_pieces
    refine ⟨[.root], rest.filterMap innerComponent?, ?_, .inr (.inl rfl), fun c hc => ?_⟩
    · rw [components_of_splitOn hs, if_pos h]
    · obtain ⟨piece, -, hpiece⟩ := List.mem_filterMap.1 hc
      exact innerComponent?_eq_some hpiece
  · rcases (components_relative h).2 with heq | heq
    · exact ⟨[], p.steps, heq, .inl rfl, fun _ => mem_steps_relative h⟩
    · exact ⟨[.here], p.steps, heq, .inr (.inr rfl), fun _ => mem_steps_relative h⟩

/-- Paths with the same components stay so below any path. -/
theorem components_join_congr (p : Path) (h : q.components = r.components) :
    (p.join q).components = (p.join r).components := by
  have habs : q.isAbsolute ↔ r.isAbsolute := by
    rw [← root_mem_components, ← root_mem_components, h]
  by_cases hq : q.isAbsolute
  · rw [join_absolute p hq, join_absolute p (habs.1 hq), h]
  · by_cases hp : p.text.toList = []
    · rw [join_of_empty hp, join_of_empty hp, h]
    · rw [components_join hp hq, components_join hp fun hr => hq (habs.2 hr), steps, steps, h]

/-! ## Paths that stay below their start -/

/-- The path is relative and never goes up. -/
def Contained (p : Path) : Prop := ¬ p.isAbsolute ∧ .up ∉ p.components

instance (p : Path) : Decidable p.Contained := inferInstanceAs (Decidable (_ ∧ _))

theorem up_mem_steps : .up ∈ p.steps ↔ .up ∈ p.components := by
  simp [steps]

/-- A path that stays below its start goes by names. -/
theorem Contained.exists_names (h : p.Contained) :
    ∃ names : List String, p.steps = names.map .name := by
  apply exists_map_name
  intro c hc
  refine (mem_steps_relative h.1 hc).resolve_left ?_
  rintro rfl
  exact h.2 (up_mem_steps.1 hc)

/-- A joined path stays below its start exactly when both parts do. -/
theorem contained_join : (p.join q).Contained ↔ p.Contained ∧ q.Contained := by
  by_cases hq : q.isAbsolute
  · rw [join_absolute p hq]
    simp [Contained, hq]
  · by_cases hp : p.text.toList = []
    · have hp' : p = ⟨""⟩ := ext hp
      have hnil : p.Contained := by rw [hp']; decide
      rw [join_of_empty hp]
      simp [hnil]
    · rw [Contained, Contained, Contained, isAbsolute_join, components_join hp hq, List.mem_append,
        up_mem_steps]
      simp [hq, and_assoc]

theorem contained_extend {pieces : List String} :
    (p.extend pieces).Contained ↔ p.Contained ∧ ∀ piece ∈ pieces, (Path.mk piece).Contained := by
  induction pieces generalizing p with
  | nil => simp [extend]
  | cons piece pieces ih =>
    have hstep : p.extend (piece :: pieces) = (p.join ⟨piece⟩).extend pieces := rfl
    rw [hstep, ih, contained_join]
    simp [and_assoc]

/-- A piece of a text cut at its dots never goes up, so it stays below its start unless it is
absolute. -/
theorem contained_of_no_dot {s : String} (h : '.' ∉ s.toList) :
    (Path.mk s).Contained ↔ ¬ (Path.mk s).isAbsolute := by
  refine ⟨And.left, fun habs => ⟨habs, fun hup => ?_⟩⟩
  rw [← up_mem_steps, (components_relative habs).1] at hup
  obtain ⟨piece, hpiece, hinner⟩ := List.mem_filterMap.1 hup
  refine h (Text.mem_of_mem_splitOn hpiece ?_)
  rw [innerComponent?_eq_up.1 hinner]
  simp

/-- A name without slashes stays below its start unless it is that of the directory above. -/
theorem contained_of_no_slash {s : String} (h : '/' ∉ s.toList) :
    (Path.mk s).Contained ↔ s ≠ ".." := by
  have habs := relative_of_no_slash h
  have hpieces : splitOn '/' (Path.mk s).text.toList = [s.toList] := Text.splitOn_of_not_mem h
  have hup : .up ∈ (Path.mk s).steps ↔ s.toList = ['.', '.'] := by
    rw [(components_relative habs).1, hpieces, List.mem_filterMap]
    simp [innerComponent?_eq_up]
  rw [Contained, ← up_mem_steps, hup, ne_eq, ← String.toList_inj]
  exact and_iff_right habs

/-! ## Longer paths -/

/-- The second path goes on from the first, in its text and in its components. -/
structure Starts (p q : Path) : Prop where
  text : p.text.toList <+: q.text.toList
  components : p.components <+: q.components

theorem Starts.trans (h : p.Starts q) (h' : q.Starts r) : p.Starts r :=
  ⟨h.text.trans h'.text, h.components.trans h'.components⟩

theorem starts_join (p : Path) (hq : ¬ q.isAbsolute) : p.Starts (p.join q) where
  text := by
    rw [toList_join p hq, List.append_assoc]
    exact List.prefix_append _ _
  components := by
    by_cases hp : p.text.toList = []
    · have hp' : p = ⟨""⟩ := ext hp
      have hnil : p.components = [] := by rw [hp']; decide
      rw [hnil]
      exact List.nil_prefix
    · rw [components_join hp hq]
      exact List.prefix_append _ _

theorem starts_extend (p : Path) {pieces : List String}
    (h : ∀ piece ∈ pieces, ¬ (Path.mk piece).isAbsolute) : p.Starts (p.extend pieces) := by
  induction pieces generalizing p with
  | nil => exact ⟨List.prefix_refl _, List.prefix_refl _⟩
  | cons piece pieces ih =>
    have hstep : p.extend (piece :: pieces) = (p.join ⟨piece⟩).extend pieces := rfl
    rw [hstep]
    exact (starts_join p (h piece (by simp))).trans (ih _ fun q hq => h q (by simp [hq]))

/-! ## The path above -/

/-- A path is absolute when nothing stands in front of its first slash. -/
theorem isAbsolute_of_splitOn {first : List Char} {rest : List (List Char)}
    (h : splitOn '/' p.text.toList = first :: rest) : p.isAbsolute ↔ first = [] ∧ rest ≠ [] := by
  have htext := joined_splitOn '/' p.text.toList
  rw [h] at htext
  have hfirst : '/' ∉ first := not_mem_of_mem_splitOn (by rw [h]; simp)
  rw [isAbsolute_iff, ← htext]
  cases rest with
  | nil =>
    refine iff_of_false (fun hhead => hfirst (List.mem_of_head? hhead)) ?_
    simp
  | cons second rest =>
    cases first with
    | nil => simp [joined]
    | cons c cs =>
      have hc : c ≠ '/' := fun e => hfirst (by simp [e])
      simp [joined, hc]

/-- The steps of the path that pieces make, where no piece at all in front stands for the root. -/
theorem components_ofPieces {first : List Char} {rest : List (List Char)}
    (h : ∀ piece ∈ first :: rest, '/' ∉ piece) :
    (Path.mk (if joined '/' (first :: rest) = [] then "/"
      else String.ofList (joined '/' (first :: rest)))).components =
      (if first = [] then [.root]
        else if first = ['.'] then [.here] else (innerComponent? first).toList) ++
        rest.filterMap innerComponent? := by
  by_cases hnil : joined '/' (first :: rest) = []
  · have hslash : (Path.mk "/").components = [.root] := by decide
    cases rest with
    | nil =>
      have hfirst : first = [] := hnil
      rw [if_pos hnil, hslash, if_pos hfirst, List.filterMap_nil, List.append_nil]
    | cons second rest => simp [joined] at hnil
  · have hsplit : splitOn '/' (Path.mk (String.ofList (joined '/' (first :: rest)))).text.toList =
        first :: rest := by
      rw [String.toList_ofList, splitOn_joined (by simp) h]
    have hroot : first = [] ∧ rest ≠ [] ↔ first = [] := by
      refine and_iff_left_of_imp ?_
      intro hfirst hrest
      exact hnil (by rw [hfirst, hrest]; rfl)
    rw [if_neg hnil, components_of_splitOn hsplit]
    simp only [isAbsolute_of_splitOn hsplit, hroot]

/-- Pieces that are no steps can be left out in front. -/
theorem filterMap_dropWhile (pieces : List (List Char)) :
    (pieces.dropWhile fun piece => decide (piece = [] ∨ piece = ['.'])).filterMap innerComponent? =
      pieces.filterMap innerComponent? := by
  induction pieces with
  | nil => rfl
  | cons piece pieces ih =>
    by_cases hidle : piece = [] ∨ piece = ['.']
    · have hnone : innerComponent? piece = none := by rw [innerComponent?, if_pos hidle]
      rw [List.dropWhile_cons_of_pos (by simpa using hidle), ih, List.filterMap_cons_none hnone]
    · rw [List.dropWhile_cons_of_neg (by simpa using hidle)]

theorem filterMap_of_idle {pieces : List (List Char)}
    (h : (pieces.reverse.dropWhile fun piece => decide (piece = [] ∨ piece = ['.'])) = []) :
    pieces.filterMap innerComponent? = [] := by
  have hsteps := filterMap_dropWhile pieces.reverse
  rw [h, List.filterMap_nil, List.filterMap_reverse] at hsteps
  exact List.reverse_eq_nil_iff.1 hsteps.symm

theorem exists_innerComponent {piece : List Char} (hempty : piece ≠ []) (hdot : piece ≠ ['.']) :
    ∃ c, innerComponent? piece = some c := by
  rw [innerComponent?, if_neg (not_or.2 ⟨hempty, hdot⟩)]
  split
  · exact ⟨_, rfl⟩
  · exact ⟨_, rfl⟩

/-- Behind the last piece that is a step there is none, so the pieces in front of it give the
others. -/
theorem steps_before_last {pieces before : List (List Char)} {last : List Char}
    (h : (pieces.reverse.dropWhile fun piece => decide (piece = [] ∨ piece = ['.'])) =
      last :: before) :
    ∃ c, pieces.filterMap innerComponent? =
      (before.dropWhile fun piece => decide (piece = [] ∨ piece = ['.'])).reverse.filterMap
        innerComponent? ++ [c] := by
  have hidle := List.head?_dropWhile_not
    (fun piece : List Char => decide (piece = [] ∨ piece = ['.'])) pieces.reverse
  rw [h, List.head?_cons] at hidle
  obtain ⟨hempty, hdot⟩ := not_or.1 (of_decide_eq_false hidle)
  obtain ⟨c, hc⟩ := exists_innerComponent hempty hdot
  have hsteps := filterMap_dropWhile pieces.reverse
  rw [h, List.filterMap_cons_some hc, List.filterMap_reverse] at hsteps
  refine ⟨c, ?_⟩
  rw [List.filterMap_reverse, filterMap_dropWhile, ← List.reverse_cons, hsteps,
    List.reverse_reverse]

/-- The pieces that the path above keeps hold no slash. -/
theorem not_mem_of_kept {cs first last : List Char} {rest before : List (List Char)}
    (hs : splitOn '/' cs = first :: rest)
    (hlast : (rest.reverse.dropWhile fun piece => decide (piece = [] ∨ piece = ['.'])) =
      last :: before) :
    ∀ piece ∈ first ::
      (before.dropWhile fun piece => decide (piece = [] ∨ piece = ['.'])).reverse,
      '/' ∉ piece := by
  intro piece hpiece
  suffices hcut : piece ∈ splitOn '/' cs from not_mem_of_mem_splitOn hcut
  rw [hs]
  refine List.mem_cons.2 ((List.mem_cons.1 hpiece).imp_right fun hkept => ?_)
  have hbefore := (List.dropWhile_sublist _).mem (List.mem_reverse.1 hkept)
  have hmem : piece ∈ rest.reverse.dropWhile _ := hlast ▸ List.mem_cons_of_mem last hbefore
  exact List.mem_reverse.1 ((List.dropWhile_sublist _).mem hmem)

/-- The path above has all steps but the last. -/
theorem components_of_parent? (h : p.parent? = some dir) :
    ∃ c, p.components = dir.components ++ [c] := by
  obtain ⟨first, rest, hs⟩ := p.exists_pieces
  have hcomponents := components_of_splitOn hs
  simp only [isAbsolute_of_splitOn hs] at hcomponents
  simp only [parent?, hs] at h
  split at h
  · next hidle =>
    -- All pieces behind the first are no steps, so the first is the only one.
    rw [filterMap_of_idle hidle, List.append_nil] at hcomponents
    split at h
    · cases h
    · next hfirst =>
      obtain rfl := Option.some.inj h
      have hempty : (Path.mk "").components = [] := by decide
      rw [hempty, hcomponents, if_neg fun hroot => hfirst hroot.1]
      by_cases hdot : first = ['.']
      · exact ⟨.here, by rw [if_pos hdot]; rfl⟩
      · obtain ⟨c, hc⟩ := exists_innerComponent hfirst hdot
        exact ⟨c, by rw [if_neg hdot, hc]; rfl⟩
  · next last before hlast =>
    obtain rfl := Option.some.inj h
    obtain ⟨c, hc⟩ := steps_before_last hlast
    have hrest : rest ≠ [] := by
      rintro rfl
      cases hlast
    refine ⟨c, ?_⟩
    rw [hcomponents, hc, ← List.append_assoc, components_ofPieces (not_mem_of_kept hs hlast)]
    simp only [hrest, ne_eq, not_false_eq_true, and_true]

/-- Only a path without steps and the root have no path above. -/
theorem components_of_parent?_eq_none (h : p.parent? = none) :
    p.components = [] ∨ p.components = [.root] := by
  obtain ⟨first, rest, hs⟩ := p.exists_pieces
  simp only [parent?, hs] at h
  split at h
  · next hidle =>
    split at h
    · next hfirst =>
      rw [components_of_splitOn hs, filterMap_of_idle hidle, hfirst]
      split
      · exact .inr rfl
      · exact .inl rfl
    · cases h
  · cases h

end EventForge.Path
