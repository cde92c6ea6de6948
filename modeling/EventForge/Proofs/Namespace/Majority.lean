import EventForge.Namespace
import EventForge.Proofs.Context.Placements
import EventForge.Proofs.Dict
import Mathlib.Algebra.BigOperators.Group.List.Lemmas
import Mathlib.Algebra.GroupWithZero.Nat
import Mathlib.Data.List.Induction

/-!
# The namespace of most schemas

Votes are counted in the order in which names first occur (`tally_eq`). The ranking of all names is
a stable sort of the counts and the choice of the majority a scan for the greatest count; the scan
finds the head of the sort (`leader?_eq_head?`), so both name the same winner (`majority_elected`).
-/

namespace EventForge.NamespaceChoice

open Context (fresh union InOrder)

/-- The name that most of the votes are for; of equally many the one voted for first. -/
structure Elected (votes : List String) (name : String) : Prop where
  mem : name ∈ votes
  most : ∀ n ∈ votes, votes.count n ≤ votes.count name
  first : ∀ n ∈ votes, votes.count n = votes.count name → votes.idxOf name ≤ votes.idxOf n

/-- All names with their numbers of votes, in falling order; equal numbers are in the order of the
first votes. -/
structure Ranks (votes : List String) (ranking : List (String × Nat)) : Prop where
  nodup : (ranking.map Prod.fst).Nodup
  mem : ∀ n, n ∈ ranking.map Prod.fst ↔ n ∈ votes
  count : ∀ e ∈ ranking, e.2 = votes.count e.1
  total : (ranking.map Prod.snd).sum = votes.length
  order : ranking.Pairwise fun a b =>
    b.2 < a.2 ∨ (a.2 = b.2 ∧ votes.idxOf a.1 < votes.idxOf b.1)

/-! ## Counting -/

section OneMore

variable (votes : List String) (x : String)

theorem count_append_singleton (n : String) :
    (votes ++ [x]).count n = if n = x then votes.count x + 1 else votes.count n := by
  rw [List.count_append, List.count_singleton]
  by_cases h : n = x
  · simp [h]
  · simp [h, Ne.symm h]

theorem union_append_singleton :
    union [] (votes ++ [x]) =
      if x ∈ union [] votes then union [] votes else union [] votes ++ [x] := by
  rw [union, List.foldl_append]
  rfl

theorem tally_append_singleton :
    tally (votes ++ [x]) = upsert (tally votes) x ((find? (tally votes) x).getD 0 + 1) := by
  simp [tally, List.foldl_append]

end OneMore

/-- The names that are voted for, each with its votes, in the order of the first votes. -/
theorem tally_eq (votes : List String) :
    tally votes = (union [] votes).map fun n => (n, votes.count n) := by
  induction votes using List.reverseRecOn with
  | nil => rfl
  | append_singleton votes x ih =>
    rw [tally_append_singleton, ih, find?_map_self, union_append_singleton]
    split
    · next hx =>
      have hnodup : (union [] votes).Nodup := by
        rw [Context.union_eq_append, List.nil_append]
        exact Context.nodup_fresh [] votes
      rw [upsert_map_self hnodup _ hx]
      exact List.map_congr_left fun n _ => by rw [count_append_singleton, Option.getD_some]
    · next hx =>
      have hkey : x ∉ ((union [] votes).map fun n => (n, votes.count n)).map Prod.fst := by
        simpa [Function.comp_def] using hx
      have hzero : votes.count x = 0 :=
        List.count_eq_zero.2 fun h => hx (Context.mem_union.2 (.inr h))
      rw [upsert_of_not_mem hkey, List.map_append, List.map_singleton, count_append_singleton,
        if_pos rfl, hzero]
      refine congrArg (· ++ _) (List.map_congr_left fun n hn => ?_)
      rw [count_append_singleton, if_neg fun heq : n = x => hx (heq ▸ hn)]

/-! ## Ranking -/

/-- One entry may stand in front of another when it has at least as many votes. -/
def notBelow (a b : String × Nat) : Bool := b.2 ≤ a.2

theorem notBelow_trans (a b c : String × Nat) (hab : notBelow a b) (hbc : notBelow b c) :
    notBelow a c := by
  simp only [notBelow, decide_eq_true_eq] at *
  omega

theorem notBelow_total (a b : String × Nat) : notBelow a b || notBelow b a := by
  simp only [notBelow, Bool.or_eq_true, decide_eq_true_eq]
  omega

/-- Sorting keeps entries with equally many votes in their order. -/
theorem filter_mergeSort_notBelow (counts : List (String × Nat)) (k : Nat) :
    (counts.mergeSort notBelow).filter (fun e => e.2 = k) = counts.filter fun e => e.2 = k := by
  have hequal : (counts.filter fun e => e.2 = k).Pairwise fun a b => notBelow a b := by
    refine List.pairwise_of_forall_mem_list fun a ha b hb => ?_
    have ha' := of_decide_eq_true (List.mem_filter.1 ha).2
    have hb' := of_decide_eq_true (List.mem_filter.1 hb).2
    simp only [notBelow, decide_eq_true_eq]
    omega
  have hsub := (List.sublist_mergeSort notBelow_trans notBelow_total hequal
    List.filter_sublist).filter fun e => e.2 = k
  simp only [List.filter_filter, Bool.and_self] at hsub
  have hlength := ((List.mergeSort_perm counts notBelow).filter fun e => e.2 = k).length_eq
  exact (hsub.eq_of_length hlength.symm).symm

/-- An entry with more votes than each one before it and no fewer than each one after it. -/
def FirstMost (counts : List (String × Nat)) (e : String × Nat) : Prop :=
  ∃ before after, counts = before ++ e :: after ∧ (∀ a ∈ before, a.2 < e.2) ∧
    ∀ a ∈ after, a.2 ≤ e.2

/-- What the scan does with one more entry. -/
theorem leader?_append_singleton (counts : List (String × Nat)) (c : String × Nat) :
    leader? (counts ++ [c]) =
      match leader? counts with
      | none => some c
      | some b => if b.2 < c.2 then some c else some b := by
  rw [leader?, List.foldl_append]
  rfl

theorem mem_of_leader?_eq_some {counts : List (String × Nat)} {e : String × Nat}
    (h : leader? counts = some e) : e ∈ counts := by
  induction counts using List.reverseRecOn with
  | nil => cases h
  | append_singleton counts c ih =>
    rw [leader?_append_singleton] at h
    cases hleader : leader? counts with
    | none =>
      rw [hleader] at h
      cases h
      simp
    | some b =>
      rw [hleader] at h
      dsimp only at h
      split at h
      · cases h
        simp
      · cases h
        exact List.mem_append_left _ (ih hleader)

theorem leader?_eq_some {counts : List (String × Nat)} {e : String × Nat}
    (h : FirstMost counts e) : leader? counts = some e := by
  obtain ⟨before, after, rfl, hbefore, hafter⟩ := h
  induction after using List.reverseRecOn with
  | nil =>
    rw [leader?_append_singleton]
    cases hleader : leader? before with
    | none => rfl
    | some b => exact if_pos (hbefore b (mem_of_leader?_eq_some hleader))
  | append_singleton after c ih =>
    have hc : ¬ e.2 < c.2 := Nat.not_lt.2 (hafter c (by simp))
    have hprefix := ih fun a ha => hafter a (List.mem_append_left _ ha)
    rw [← List.cons_append, ← List.append_assoc, leader?_append_singleton, hprefix]
    exact if_neg hc

theorem firstMost_of_head?_mergeSort {counts : List (String × Nat)} {e : String × Nat}
    (h : (counts.mergeSort notBelow).head? = some e) : FirstMost counts e := by
  obtain ⟨rest, hsorted⟩ := List.head?_eq_some_iff.1 h
  have hmost : ∀ a ∈ counts, a.2 ≤ e.2 := by
    intro a ha
    have hpairwise := List.pairwise_mergeSort notBelow_trans notBelow_total counts
    have hmem : a ∈ counts.mergeSort notBelow := List.mem_mergeSort.2 ha
    rw [hsorted, List.mem_cons] at hmem
    rw [hsorted, List.pairwise_cons] at hpairwise
    rcases hmem with rfl | hrest
    · exact le_rfl
    · exact of_decide_eq_true (hpairwise.1 a hrest)
  -- The entries with as many votes as the head keep their order, so it leads them in `counts`.
  have hequal := filter_mergeSort_notBelow counts e.2
  rw [hsorted, List.filter_cons_of_pos (by simp)] at hequal
  obtain ⟨before, after, hcounts, hbefore, -, -⟩ := List.filter_eq_cons_iff.1 hequal.symm
  refine ⟨before, after, hcounts, fun a ha => ?_, fun a ha => hmost a (by simp [hcounts, ha])⟩
  have hle := hmost a (by simp [hcounts, ha])
  have hne : a.2 ≠ e.2 := fun heq => hbefore a ha (decide_eq_true heq)
  exact Nat.lt_of_le_of_ne hle hne

/-- The scan for the greatest count finds the head of the sort. -/
theorem leader?_eq_head? (counts : List (String × Nat)) :
    leader? counts = (counts.mergeSort notBelow).head? := by
  cases hhead : (counts.mergeSort notBelow).head? with
  | none =>
    have hperm := (List.mergeSort_perm counts notBelow).symm
    rw [List.head?_eq_none_iff.1 hhead] at hperm
    rw [hperm.eq_nil]
    rfl
  | some e => exact leader?_eq_some (firstMost_of_head?_mergeSort hhead)

/-! ## The ranking of a model -/

/-- The votes of all names together are all votes. -/
theorem sum_tally (votes : List String) :
    ((tally votes).map Prod.snd).sum = votes.length := by
  have hperm : (fresh [] votes).Perm votes.dedup :=
    (List.perm_ext_iff_of_nodup (Context.nodup_fresh [] votes) (List.nodup_dedup votes)).2
      fun n => by simp [Context.mem_fresh]
  calc ((tally votes).map Prod.snd).sum
      = ((fresh [] votes).map votes.count).sum := by
        rw [tally_eq, Context.union_eq_append, List.nil_append, List.map_map]
        rfl
    _ = (votes.dedup.map votes.count).sum := (hperm.map votes.count).sum_eq
    _ = votes.length := List.sum_map_count_dedup_eq_length votes

/-- The names of the counted votes, each once, in the order of the first votes. -/
theorem map_fst_tally (votes : List String) : (tally votes).map Prod.fst = fresh [] votes := by
  rw [tally_eq, Context.union_eq_append, List.nil_append, List.map_map]
  exact List.map_id _

/-- The counts are listed in the order of the first votes. -/
theorem pairwise_tally (votes : List String) :
    (tally votes).Pairwise fun a b => votes.idxOf a.1 < votes.idxOf b.1 := by
  have horder := Context.inOrder_fresh [] votes
  rw [InOrder, ← map_fst_tally, List.pairwise_map] at horder
  exact horder

/-- A stable sort of the counts ranks the names. -/
theorem ranks_mergeSort_tally (votes : List String) :
    Ranks votes ((tally votes).mergeSort notBelow) where
  nodup := by
    rw [((List.mergeSort_perm _ _).map Prod.fst).nodup_iff, map_fst_tally]
    exact Context.nodup_fresh [] votes
  mem n := by
    rw [((List.mergeSort_perm _ _).map Prod.fst).mem_iff, map_fst_tally, Context.mem_fresh]
    simp
  count e he := by
    rw [List.mem_mergeSort, tally_eq] at he
    obtain ⟨n, -, rfl⟩ := List.mem_map.1 he
    rfl
  total := by
    rw [((List.mergeSort_perm _ _).map Prod.snd).sum_eq]
    exact sum_tally votes
  order := by
    have hsorted := List.pairwise_mergeSort notBelow_trans notBelow_total (tally votes)
    rw [List.pairwise_iff_forall_sublist] at hsorted ⊢
    intro a b hab
    have hle : b.2 ≤ a.2 := of_decide_eq_true (hsorted hab)
    rcases Nat.lt_or_eq_of_le hle with hlt | heq
    · exact .inl hlt
    -- Names with equally many votes are ranked as they are counted.
    · have hequal := hab.filter fun e => e.2 = b.2
      rw [filter_mergeSort_notBelow, List.filter_cons_of_pos (by simp [heq]),
        List.filter_cons_of_pos (by simp), List.filter_nil] at hequal
      have hcounted := hequal.trans List.filter_sublist
      exact .inr ⟨heq.symm, List.pairwise_iff_forall_sublist.1 (pairwise_tally votes) hcounted⟩

theorem Ranks.elected {votes : List String} {e : String × Nat} {rest : List (String × Nat)}
    (h : Ranks votes (e :: rest)) : Elected votes e.1 := by
  have hbelow : ∀ n ∈ votes, n = e.1 ∨ votes.count n < votes.count e.1 ∨
      (votes.count e.1 = votes.count n ∧ votes.idxOf e.1 < votes.idxOf n) := by
    intro n hn
    obtain ⟨a, ha, rfl⟩ := List.mem_map.1 ((h.mem n).2 hn)
    rcases List.mem_cons.1 ha with rfl | harest
    · exact .inl rfl
    · rw [← h.count a ha, ← h.count e (by simp)]
      exact .inr ((List.pairwise_cons.1 h.order).1 a harest)
  refine ⟨(h.mem e.1).1 (by simp), fun n hn => ?_, fun n hn hequal => ?_⟩
  · rcases hbelow n hn with rfl | hlt | ⟨heq, -⟩ <;> omega
  · rcases hbelow n hn with rfl | hlt | ⟨-, hlt⟩ <;> omega

/-- The namespaces that the schemas of a model are in, in document order. -/
def schemaNamespaces (m : Model) : List String := m.schemas.values.map Schema.ns

theorem ranks_ranking (m : Model) : Ranks (schemaNamespaces m) (ranking m) :=
  ranks_mergeSort_tally (schemaNamespaces m)

theorem leader?_census (m : Model) : leader? (census m) = (ranking m).head? :=
  leader?_eq_head? (census m)

/-- The listing of namespaces ranks them by their schemas, and the choice of the majority is its
head with dots for slashes, where the namespace that stands for none becomes the fallback. Without
schemas nothing is listed and the choice is the fallback. -/
theorem majority_elected (m : Model) :
    Ranks (schemaNamespaces m) (ranking m) ∧
      (m.schemas.values ≠ [] → ∃ ns,
        (ranking m).head? = some (ns, (schemaNamespaces m).count ns) ∧
          Elected (schemaNamespaces m) ns ∧
          resolve m .majority = if ns = "default" then "main" else Text.replaceChar '/' '.' ns) ∧
      (m.schemas.values = [] → ranking m = [] ∧ resolve m .majority = "main") := by
  have hranks := ranks_ranking m
  refine ⟨hranks, fun hsome => ?_, fun hnone => ?_⟩
  · obtain ⟨s, hs⟩ := List.exists_mem_of_ne_nil _ hsome
    have hvote : s.ns ∈ (ranking m).map Prod.fst := (hranks.mem s.ns).2 (List.mem_map_of_mem hs)
    cases hlist : ranking m with
    | nil =>
      rw [hlist] at hvote
      cases hvote
    | cons e rest =>
      have hhead : leader? (census m) = some e := by rw [leader?_census, hlist, List.head?_cons]
      have hcount := hranks.count e (by simp [hlist])
      rw [hlist] at hranks
      refine ⟨e.1, ?_, hranks.elected, ?_⟩
      · rw [List.head?_cons, ← hcount]
      · rw [resolve, majorityOf, hhead]
        rfl
  · have hempty : ranking m = [] := by simp [ranking, census, tally, hnone]
    refine ⟨hempty, ?_⟩
    rw [resolve, majorityOf, leader?_census, hempty]
    rfl

/-- Two namespaces with two schemas each, the first one nested. -/
def tiedNamespaces : Model :=
  let schema (i : Nat) (ns : String) : Uuid × Schema :=
    (.uniform i, ⟨.uniform i, "Paid", ns, none, .scalar ⟨"Paid", none⟩ .string⟩)
  { Model.empty with
    schemas := .ofList [schema 1 "billing/eu", schema 2 "orders", schema 3 "orders",
      schema 4 "billing/eu"] }

theorem majority_elected_tied :
    tiedNamespaces.schemas.values ≠ [] ∧
      (ranking tiedNamespaces).head? = some ("billing/eu", 2) ∧
      resolve tiedNamespaces .majority = "billing.eu" := by
  have hsome : tiedNamespaces.schemas.values ≠ [] := by decide
  obtain ⟨ns, hhead, helected, hresolve⟩ := (majority_elected tiedNamespaces).2.1 hsome
  have hvotes : schemaNamespaces tiedNamespaces =
      ["billing/eu", "orders", "orders", "billing/eu"] := by decide
  rw [hvotes] at hhead helected
  have hfirst : ns = "billing/eu" := by
    have hmem := helected.mem
    have hearliest := helected.first "billing/eu" (by simp)
    by_contra hother
    have horders : ns = "orders" := by simpa [hother] using hmem
    subst horders
    exact absurd (hearliest (by decide)) (by decide)
  subst hfirst
  exact ⟨hsome, hhead, hresolve.trans (by decide)⟩

end EventForge.NamespaceChoice
