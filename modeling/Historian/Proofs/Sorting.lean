import Mathlib.Data.List.Destutter
import Mathlib.Data.List.Dedup

namespace Historian

open Std

section Repetitions

variable {r : α → α → Bool}

theorem eraseRepsBy_loop (a : α) (as acc : List α) :
    List.eraseRepsBy.loop r a as acc = acc.reverse ++ as.destutter' (fun a b => ¬r a b) a := by
  induction as generalizing a acc with
  | nil => simp [List.eraseRepsBy.loop]
  | cons b as ih =>
    unfold List.eraseRepsBy.loop
    split
    case h_1 h => simp [ih, List.destutter', h]
    case h_2 h => simp [ih, List.destutter', h]

theorem eraseRepsBy_eq_destutter (as : List α) :
    as.eraseRepsBy r = as.destutter (fun a b => ¬r a b) := by
  cases as with
  | nil => rfl
  | cons a as => exact eraseRepsBy_loop a as []

-- What is left out is like the entry that was kept last.
theorem exists_mem_destutter' {a x : α} {as : List α} (h : x ∈ a :: as) (hx : r x x) :
    ∃ b ∈ as.destutter' (fun a b => ¬r a b) a, r b x := by
  induction as generalizing a with
  | nil =>
    cases List.mem_singleton.mp h
    exact ⟨x, .head _, hx⟩
  | cons c as ih =>
    by_cases like : r a c
    case pos =>
      rw [List.destutter'_cons_neg _ (by simpa using like)]
      cases h with
      | head => exact ih (.head _)
      | tail _ h =>
        cases h with
        | head => exact ⟨a, List.mem_destutter' _ _ _, like⟩
        | tail _ h => exact ih (.tail _ h)
    case neg =>
      rw [List.destutter'_cons_pos _ like]
      cases h with
      | head => exact ⟨x, .head _, hx⟩
      | tail _ h =>
        obtain ⟨b, hb, hr⟩ := ih h
        exact ⟨b, .tail _ hb, hr⟩

variable {R : α → α → Prop} [DecidableRel R] [DecidableEq α] {as : List α}

-- Entries that no list may have twice in a row can first be dropped where they follow themselves.

theorem destutter'_destutter'_ne (a b : α) (h : ∀ x ∈ b :: as, ¬R x x) :
    (as.destutter' (· ≠ ·) b).destutter' R a = (b :: as).destutter' R a := by
  induction as generalizing a b with
  | nil => rfl
  | cons c as ih =>
    have once : ¬R b b := h b (.head _)
    by_cases hc : b = c
    case pos =>
      subst hc
      rw [List.destutter'_cons_neg _ (by simp), ih a b fun x hx => h x (.tail _ hx)]
      by_cases hr : R a b <;> simp [hr, once]
    case neg =>
      rw [List.destutter'_cons_pos _ hc]
      have later (a : α) := ih a c fun x hx => h x (.tail _ hx)
      by_cases hr : R a b <;> simp [hr, later]

theorem destutter_destutter_ne (h : ∀ x ∈ as, ¬R x x) :
    (as.destutter (· ≠ ·)).destutter R = as.destutter R := by
  cases as with
  | nil => rfl
  | cons a as =>
    simp only [List.destutter_cons']
    induction as generalizing a with
    | nil => rfl
    | cons b as ih =>
      by_cases hb : a = b
      case pos =>
        subst hb
        rw [List.destutter'_cons_neg _ (by simp), ih a fun x hx => h x (.tail _ hx),
          List.destutter'_cons_neg _ (h a (.head _))]
      case neg =>
        rw [List.destutter'_cons_pos _ hb, List.destutter_cons',
          destutter'_destutter'_ne a b fun x hx => h x (.tail _ hx)]

end Repetitions

-- The entries in order, and of those in a row that are alike the first.
def settle (cmp : α → α → Ordering) (r : α → α → Bool) (as : List α) : List α :=
  (as.mergeSort fun a b => (cmp a b).isLE).eraseRepsBy r

section Settled

variable {cmp : α → α → Ordering} {r : α → α → Bool} {as bs : List α}

theorem settle_sublist : (settle cmp r as).Sublist (as.mergeSort fun a b => (cmp a b).isLE) := by
  rw [settle, eraseRepsBy_eq_destutter]
  exact List.destutter_sublist _ _

@[simp] theorem settle_nil : settle cmp r [] = [] := by
  simp [settle, List.eraseRepsBy]

theorem mem_of_mem_settle (h : a ∈ settle cmp r as) : a ∈ as :=
  List.mem_mergeSort.mp (settle_sublist.subset h)

-- Nothing is lost: each entry that is like itself is like one of those that are kept.
theorem exists_mem_settle {a : α} (h : a ∈ as) (ha : r a a) : ∃ b ∈ settle cmp r as, r b a := by
  have sorted : a ∈ as.mergeSort fun a b => (cmp a b).isLE := List.mem_mergeSort.mpr h
  rw [settle, eraseRepsBy_eq_destutter]
  generalize as.mergeSort (fun a b => (cmp a b).isLE) = bs at sorted
  cases bs with
  | nil => cases sorted
  | cons b bs => exact exists_mem_destutter' sorted ha

def InOrder (cmp : α → α → Ordering) (as : List α) : Prop :=
  as.Pairwise fun a b => (cmp a b).isLE

theorem settle_of_inOrder (h : InOrder cmp as) : settle cmp r as = as.eraseRepsBy r := by
  rw [settle, List.mergeSort_of_pairwise h]

variable [TransCmp cmp]

theorem inOrder_mergeSort : InOrder cmp (as.mergeSort fun a b => (cmp a b).isLE) :=
  List.pairwise_mergeSort (fun _ _ _ => TransCmp.isLE_trans)
    (fun a b => by
      rw [show cmp b a = (cmp a b).swap from OrientedCmp.eq_swap]
      cases cmp a b <;> rfl) as

theorem settle_settle : settle cmp r (settle cmp r as) = settle cmp r as := by
  have sorted : InOrder cmp (settle cmp r as) := inOrder_mergeSort.sublist settle_sublist
  rw [settle_of_inOrder sorted]
  simp only [settle, eraseRepsBy_eq_destutter, List.destutter_idem]

variable [LawfulEqCmp cmp]

theorem eq_of_isLE_isLE (hab : (cmp a b).isLE) (hba : (cmp b a).isLE) : a = b :=
  LawfulEqCmp.eq_of_compare (OrientedCmp.isLE_antisymm hab hba)

-- Neither the order nor the repetition of entries matters, where entries are like themselves.
theorem settle_congr [DecidableEq α] (repeats : ∀ a ∈ as, r a a) (h : ∀ a, a ∈ as ↔ a ∈ bs) :
    settle cmp r as = settle cmp r bs := by
  let sort (as : List α) := as.mergeSort fun a b => (cmp a b).isLE
  have : Std.Antisymm fun a b : α => ((cmp a b).isLE : Prop) := ⟨fun _ _ => eq_of_isLE_isLE⟩
  have once {cs : List α} (hc : ∀ a ∈ cs, r a a) :
      settle cmp r cs = (sort cs).dedup.destutter fun a b => ¬r a b := by
    rw [← List.Pairwise.destutter_eq_dedup inOrder_mergeSort, destutter_destutter_ne]
    · exact eraseRepsBy_eq_destutter _
    · intro a ha
      simpa using hc a (List.mem_mergeSort.mp ha)
  have same : (sort as).dedup.Perm (sort bs).dedup :=
    (List.perm_ext_iff_of_nodup (List.nodup_dedup _) (List.nodup_dedup _)).mpr (by simp [sort, h])
  have ordered (cs : List α) : InOrder cmp (sort cs).dedup :=
    inOrder_mergeSort.sublist (List.dedup_sublist _)
  rw [once repeats, once fun a ha => repeats a ((h a).mpr ha),
    same.eq_of_pairwise (fun _ _ _ _ => eq_of_isLE_isLE) (ordered as) (ordered bs)]

-- Entries that are like themselves stand in the settled list once, in strict order.
theorem settle_increasing (repeats : ∀ a ∈ as, r a a) :
    (settle cmp r as).Pairwise (cmp · · = .lt) := by
  have : Trans (cmp · · = .lt) (cmp · · = .lt) (cmp · · = .lt) := ⟨TransCmp.lt_trans⟩
  have sorted : InOrder cmp (settle cmp r as) := inOrder_mergeSort.sublist settle_sublist
  have apart : (settle cmp r as).IsChain fun a b => ¬r a b := by
    rw [settle, eraseRepsBy_eq_destutter]
    exact List.isChain_destutter _ _
  refine List.isChain_iff_pairwise.mp (List.isChain_iff_getElem.mpr fun i hi => ?_)
  have le := List.isChain_iff_getElem.mp sorted.isChain i hi
  have other := List.isChain_iff_getElem.mp apart i hi
  by_contra h
  -- What is not less is the same, and the same would have been left out.
  have same : cmp _ _ = .eq := (Ordering.isLE_iff_eq_lt_or_eq_eq.mp le).resolve_left h
  rw [← LawfulEqCmp.eq_of_compare same] at other
  exact other (repeats _ (mem_of_mem_settle (List.getElem_mem _)))

end Settled

end Historian
