/-
Module: FrontEnd.Proofs.SpanLattice
Layer: Proofs
Purpose: Spans ordered by containment. Merging two spans gives the least one around both, so the
  span around some items is the least upper bound of their spans; neither the order of the items
  nor how often one of them is listed makes a difference to it.
Imports: FrontEnd.Ast.Node, Mathlib.Data.List.Basic, Mathlib.Order.Bounds.Basic,
  Mathlib.Order.MinMax
Trusted boundary: none
Main exports: Span.containsSpan_iff, spansOf, foldl_merge_le_iff, coveringSpan?_eq_some_iff,
  CoversClosely, covering_span_least
Open obligations: none
-/
import FrontEnd.Ast.Node
import Mathlib.Data.List.Basic
import Mathlib.Order.Bounds.Basic
import Mathlib.Order.MinMax

namespace FrontEnd

/-! ### Containment and merging -/

namespace Span

theorem containsSpan_iff {outer inner : Span} :
    outer.containsSpan inner = true ↔ outer.start ≤ inner.start ∧ inner.stop ≤ outer.stop := by
  simp [containsSpan]

/-- A smaller span lies within a larger one, and merging gives the least span above two. An empty
    span lies within those that begin or end with it as well. -/
instance : SemilatticeSup Span where
  le inner outer := outer.containsSpan inner = true
  sup := merge
  le_refl span := containsSpan_iff.mpr ⟨Nat.le_refl _, Nat.le_refl _⟩
  le_trans inner middle outer within around := by
    rw [containsSpan_iff] at *
    exact ⟨Nat.le_trans around.1 within.1, Nat.le_trans within.2 around.2⟩
  le_antisymm left right within around := by
    rw [containsSpan_iff] at *
    exact ext_bounds (Nat.le_antisymm around.1 within.1) (Nat.le_antisymm within.2 around.2)
  le_sup_left _ _ := containsSpan_iff.mpr ⟨Nat.min_le_left _ _, Nat.le_max_left _ _⟩
  le_sup_right _ _ := containsSpan_iff.mpr ⟨Nat.min_le_right _ _, Nat.le_max_right _ _⟩
  sup_le left right outer around aroundToo := by
    rw [containsSpan_iff] at *
    exact ⟨Nat.le_min.mpr ⟨around.1, aroundToo.1⟩, Nat.max_le.mpr ⟨around.2, aroundToo.2⟩⟩

theorem sup_eq_merge (left right : Span) : left ⊔ right = left.merge right :=
  rfl

/-- Merging does not check the bounds of its result, but they would pass the check. -/
theorem ofBounds_merge (left right : Span) :
    ofBounds (min left.start right.start) (max left.stop right.stop) = .ok (left.merge right) :=
  ofBounds_eq_ok (left.merge right)

end Span

/-! ### The span around some items -/

section Items

variable {α : Type} [HasSpan α] {items others : List α} {covered : Span}

/-- The spans of some items. -/
def spansOf (items : List α) : Set Span :=
  {span | ∃ item ∈ items, HasSpan.span item = span}

theorem mem_map_span {span : Span} : span ∈ items.map HasSpan.span ↔ span ∈ spansOf items :=
  List.mem_map

theorem spansOf_eq_empty_iff : spansOf items = ∅ ↔ items = [] := by
  rw [← List.map_eq_nil_iff (f := HasSpan.span), List.eq_nil_iff_forall_not_mem,
    Set.eq_empty_iff_forall_notMem]
  simp only [mem_map_span]

theorem spansOf_append (front back : List α) :
    spansOf (front ++ back) = spansOf front ∪ spansOf back := by
  ext span
  simp only [spansOf, List.mem_append, or_and_right, exists_or, Set.mem_ofPred_eq, Set.mem_union]

theorem mem_upperBounds_spansOf {outer : Span} :
    outer ∈ upperBounds (spansOf items) ↔ ∀ item ∈ items, HasSpan.span item ≤ outer := by
  constructor
  · intro above item member
    exact above ⟨item, member, rfl⟩
  · rintro above _ ⟨item, member, rfl⟩
    exact above item member

/-- What is around a span merged with those of items is around the span and around the items. -/
theorem foldl_merge_le_iff {outer : Span} (items : List α) :
    items.foldl (fun covered next => covered.merge (HasSpan.span next)) covered ≤ outer ↔
      covered ≤ outer ∧ ∀ item ∈ items, HasSpan.span item ≤ outer := by
  induction items generalizing covered with
  | nil =>
      simp
  | cons item items ih =>
      rw [List.foldl_cons, ih, ← Span.sup_eq_merge, sup_le_iff, List.forall_mem_cons, and_assoc]

/-- A bound of a span merged with those of items is that of one of them, if merging two spans takes
    the bound from one of the two. -/
theorem bound_foldl_merge {bound : Span → Nat}
    (choice : ∀ left right : Span,
      bound (left.merge right) = bound left ∨ bound (left.merge right) = bound right)
    (items : List α) :
    bound (items.foldl (fun covered next => covered.merge (HasSpan.span next)) covered)
        = bound covered ∨
      ∃ item ∈ items,
        bound (items.foldl (fun covered next => covered.merge (HasSpan.span next)) covered)
          = bound (HasSpan.span item) := by
  induction items generalizing covered with
  | nil =>
      exact Or.inl rfl
  | cons item items ih =>
      rw [List.foldl_cons]
      rcases @ih (covered.merge (HasSpan.span item)) with here | ⟨other, member, later⟩
      · rw [here]
        exact (choice covered (HasSpan.span item)).imp_right fun taken =>
          ⟨item, List.mem_cons_self .., taken⟩
      · exact Or.inr ⟨other, List.mem_cons_of_mem _ member, later⟩

theorem coveringSpan?_eq_none_iff : coveringSpan? items = none ↔ items = [] := by
  cases items with
  | nil => simp [coveringSpan?]
  | cons item items => simp [coveringSpan?]

theorem exists_coveringSpan? (filled : items ≠ []) :
    ∃ covered, coveringSpan? items = some covered :=
  Option.ne_none_iff_exists'.mp (coveringSpan?_eq_none_iff.not.mpr filled)

/-- The span around some items is the least upper bound of their spans. -/
theorem isLUB_of_coveringSpan? (found : coveringSpan? items = some covered) :
    IsLUB (spansOf items) covered := by
  cases items with
  | nil =>
      cases found
  | cons item items =>
      cases found
      rw [isLUB_iff_le_iff]
      intro outer
      rw [mem_upperBounds_spansOf, List.forall_mem_cons]
      exact foldl_merge_le_iff items

/-- A bound of the span around some items is that of one of them. -/
theorem exists_bound_eq (bound : Span → Nat)
    (choice : ∀ left right : Span,
      bound (left.merge right) = bound left ∨ bound (left.merge right) = bound right)
    (found : coveringSpan? items = some covered) :
    ∃ item ∈ items, bound (HasSpan.span item) = bound covered := by
  cases items with
  | nil =>
      cases found
  | cons first items =>
      cases found
      rcases bound_foldl_merge choice items with here | ⟨item, member, later⟩
      · exact ⟨first, List.mem_cons_self .., here.symm⟩
      · exact ⟨item, List.mem_cons_of_mem _ member, later.symm⟩

/-- There is a span around some items if and only if there are items, and it is the only least
    upper bound of their spans. -/
theorem coveringSpan?_eq_some_iff :
    coveringSpan? items = some covered ↔ items ≠ [] ∧ IsLUB (spansOf items) covered := by
  constructor
  · intro found
    refine ⟨?_, isLUB_of_coveringSpan? found⟩
    rintro rfl
    cases found
  · rintro ⟨filled, least⟩
    obtain ⟨span, found⟩ := exists_coveringSpan? filled
    rw [found, (isLUB_of_coveringSpan? found).unique least]

/-- Items that stand at the same places have the same span around them. -/
theorem coveringSpan?_congr (same : spansOf items = spansOf others) :
    coveringSpan? items = coveringSpan? others := by
  apply Option.ext
  intro covered
  rw [coveringSpan?_eq_some_iff, coveringSpan?_eq_some_iff, Ne, Ne, ← spansOf_eq_empty_iff,
    ← spansOf_eq_empty_iff, same]

/-- The span around two lists of items is the merged one. -/
theorem coveringSpan?_append {left right : Span} {front back : List α}
    (foundFront : coveringSpan? front = some left) (foundBack : coveringSpan? back = some right) :
    coveringSpan? (front ++ back) = some (left.merge right) := by
  rw [coveringSpan?_eq_some_iff] at *
  refine ⟨?_, ?_⟩
  · exact List.append_ne_nil_of_left_ne_nil foundFront.1 back
  · rw [spansOf_append, ← Span.sup_eq_merge]
    exact foundFront.2.union foundBack.2

end Items

/-! ### The laws of covering spans -/

/-- A span lies closely around some items: it is around each of them and within every span that is,
    and it reaches from the start of one item to the stop of one, which are in order. -/
structure CoversClosely {α : Type} [HasSpan α] (items : List α) (covered : Span) : Prop where
  around : ∀ item ∈ items, covered.containsSpan (HasSpan.span item) = true
  least : ∀ outer : Span, (∀ item ∈ items, outer.containsSpan (HasSpan.span item) = true) →
    outer.containsSpan covered = true
  reached : ∃ first ∈ items, ∃ last ∈ items,
    Span.ofBounds (HasSpan.span first).start (HasSpan.span last).stop = .ok covered

/-- There is a span closely around any items. -/
theorem exists_coversClosely {α : Type} [HasSpan α] {items : List α} (filled : items ≠ []) :
    ∃ covered, coveringSpan? items = some covered ∧ CoversClosely items covered := by
  obtain ⟨covered, found⟩ := exists_coveringSpan? filled
  have least := isLUB_of_coveringSpan? found
  refine ⟨covered, found, ?_, ?_, ?_⟩
  · exact mem_upperBounds_spansOf.mp least.1
  · intro outer around
    exact least.2 (mem_upperBounds_spansOf.mpr around)
  · obtain ⟨first, inFirst, start⟩ := exists_bound_eq Span.start (fun _ _ => min_choice ..) found
    obtain ⟨last, inLast, stop⟩ := exists_bound_eq Span.stop (fun _ _ => max_choice ..) found
    refine ⟨first, inFirst, last, inLast, ?_⟩
    rw [start, stop]
    exact Span.ofBounds_eq_ok covered

/-- The span around some items is the least upper bound of their spans under containment, and only
    where there are no items is there none. It depends on nothing but which spans the items have:
    not on their order, nor on how often one is listed. Lists are covered by what covers their
    parts, because merging is associative, commutative and idempotent, and the bounds that it
    gives to a span are in order. -/
theorem covering_span_least {α : Type} [HasSpan α] :
    (∀ items : List α, coveringSpan? items = none ↔ items = []) ∧
    (∀ items : List α, items ≠ [] →
      ∃ covered, coveringSpan? items = some covered ∧ CoversClosely items covered) ∧
    (∀ items others : List α, items.Perm others → coveringSpan? items = coveringSpan? others) ∧
    (∀ items others : List α,
      (∀ span, span ∈ items.map HasSpan.span ↔ span ∈ others.map HasSpan.span) →
        coveringSpan? items = coveringSpan? others) ∧
    (∀ front back : List α, front ≠ [] → back ≠ [] → ∃ left right,
      coveringSpan? front = some left ∧ coveringSpan? back = some right ∧
        coveringSpan? (front ++ back) = some (left.merge right)) ∧
    (∀ left middle right : Span,
      (left.merge middle).merge right = left.merge (middle.merge right)) ∧
    (∀ left right : Span, left.merge right = right.merge left) ∧
    (∀ span : Span, span.merge span = span) ∧
    ∀ left right : Span,
      Span.ofBounds (min left.start right.start) (max left.stop right.stop)
        = .ok (left.merge right) := by
  have unordered (items others : List α)
      (same : ∀ span, span ∈ items.map HasSpan.span ↔ span ∈ others.map HasSpan.span) :
      coveringSpan? items = coveringSpan? others :=
    coveringSpan?_congr (Set.ext fun span => by rw [← mem_map_span, same, mem_map_span])
  refine ⟨fun _ => coveringSpan?_eq_none_iff, fun _ => exists_coversClosely, ?_, unordered, ?_,
    sup_assoc, sup_comm, sup_idem, Span.ofBounds_merge⟩
  · intro items others perm
    exact unordered items others fun span => (perm.map HasSpan.span).mem_iff
  · intro front back filledFront filledBack
    obtain ⟨left, foundFront, -⟩ := exists_coversClosely filledFront
    obtain ⟨right, foundBack, -⟩ := exists_coversClosely filledBack
    exact ⟨left, right, foundFront, foundBack, coveringSpan?_append foundFront foundBack⟩

/-- Three expressions in no order, the last of which stands nowhere but at a point. -/
def scatteredItems : List Expr :=
  [.boolLiteral ⟨10, 12, by decide⟩ true, .continueLoop ⟨2, 4, by decide⟩,
    .reference (.point 30) "x"]

theorem covering_span_least_scattered :
    scatteredItems ≠ [] ∧ CoversClosely scatteredItems ⟨2, 30, by decide⟩ ∧
      coveringSpan? (scatteredItems.reverse ++ scatteredItems) = some ⟨2, 30, by decide⟩ := by
  have filled : scatteredItems ≠ [] := nofun
  have found : coveringSpan? scatteredItems = some ⟨2, 30, by decide⟩ := by rfl
  obtain ⟨-, closely, -, unordered, -⟩ := covering_span_least (α := Expr)
  obtain ⟨covered, foundToo, covers⟩ := closely scatteredItems filled
  obtain rfl : _ = covered := Option.some.inj (found.symm.trans foundToo)
  refine ⟨filled, covers, ?_⟩
  rw [← found]
  exact unordered _ _ fun span => by simp

end FrontEnd
