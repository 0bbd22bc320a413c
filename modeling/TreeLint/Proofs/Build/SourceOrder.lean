import TreeLint.Proofs.Build.Coverage
import TreeLint.Proofs.Sorting.Stability

/-!
# Source Order

Children that start at whole numbers are put in order of where they start, and stay in order where
they start at one place (`NodeTable.childNodes_eq`). That is an order of the children of one node
only. In a document whose ranges are **nested**, as those of a text are, it makes an order of the
whole walk: all that is below a node starts within its range, and the range of a child is over
before the next child starts.

## Main results

* `sourceOrder_eq_stableSort`: children that start at whole numbers, in order.
* `NodeTable.childNodes_eq`: the children of a node, from the children of its object.
* `Nested.pairwise_preorder`: a walk of nested ranges meets nodes in the order of where they start.
-/

namespace TreeLint

open Sorting

/-- The whole number that a value is. Any other value counts as zero. -/
def Value.whole {ι : Type} : Value ι → ℤ
  | .int n => n
  | _ => 0

/-- A whole value that is not null is **the whole number** that it counts as. -/
theorem Value.eq_int_whole {ι : Type} {v : Value ι} (h : v.isWhole && !v.isNull) :
    v = .int v.whole := by
  cases v with
  | int n => rfl
  | _ => cases h

/-- Where a node **starts**. -/
def Node.startOffset (n : Node) : ℤ := n.span.start.whole

namespace NodeDocument

/-- Where the node of an object **starts**. -/
def startOffset (d : NodeDocument) : ℤ := d.span.start.whole

/-- Where the node of an object **ends**. -/
def stopOffset (d : NodeDocument) : ℤ := d.span.stop.whole

/-- Whole numbers are compared **as numbers**. -/
theorem before_int (a b : ℤ) : (Value.int a : Json).before (Value.int b : Json) =
    .ok (decide (a < b)) := by
  simp [Value.before, Value.magnitude?, Magnitude.ofInt, Magnitude.lt]

/-- Children that start at whole numbers are put in order of **where they start**. -/
theorem sourceOrder_eq_stableSort {children : List Node}
    (h : ∀ c ∈ children, c.span.start = .int c.startOffset) :
    sourceOrder children = .ok (stableSort Node.startOffset children) := by
  have hall : (children.all fun child => !child.span.start.isNull) = true := by
    rw [List.all_eq_true]
    intro c hc
    rw [h c hc]
    rfl
  rw [sourceOrder, if_pos hall]
  refine sortBy?_eq_stableSort fun a ha b hb => ?_
  rw [h a ha, h b hb, before_int]

end NodeDocument

namespace NodeTable

variable {top d : NodeDocument} {built : Built}

/-- A node starts **where its object does**. -/
theorem startOffset (h : NodeTable top built) (hd : top.Reaches d) :
    (built.node d).startOffset = d.startOffset := by
  rw [Node.startOffset, (h.made d hd).span, NodeDocument.startOffset]

/-- The children of a node are **the nodes of the children** of its object, in order of where they
start. -/
theorem childNodes_eq (h : NodeTable top built) (hd : top.Reaches d)
    (hstart : ∀ c ∈ d.children, c.span.start = .int c.startOffset) :
    (built.node d).childNodes =
      (stableSort NodeDocument.startOffset d.children).map built.node := by
  obtain ⟨children, horder, hchildren⟩ := (h.made d hd).children
  have hwhole : ∀ n ∈ d.children.map built.node, n.span.start = .int n.startOffset := by
    rw [List.forall_mem_map]
    intro c hc
    rw [(h.made c (hd.child hc)).span, h.startOffset (hd.child hc)]
    exact hstart c hc
  rw [h.nodes_partsOf hd, NodeDocument.sourceOrder_eq_stableSort hwhole] at horder
  rw [Node.childNodes_eq_of_children hchildren,
    ← Except.ok.inj horder]
  exact stableSort_map fun c hc => h.startOffset (hd.child hc)

end NodeTable

/-! ### Nested ranges -/

/-- The ranges of a document are **nested**: they are of whole numbers and not empty, the range of a
child is within that of its parent, and of two children one ends before the other starts. -/
structure NodeDocument.Nested (top : NodeDocument) : Prop where
  start : ∀ d, top.Reaches d → d.span.start = .int d.startOffset
  stop : ∀ d, top.Reaches d → d.span.stop = .int d.stopOffset
  lt : ∀ d, top.Reaches d → d.startOffset < d.stopOffset
  within : ∀ d, top.Reaches d → ∀ c ∈ d.children,
    d.startOffset ≤ c.startOffset ∧ c.stopOffset ≤ d.stopOffset
  apart : ∀ d, top.Reaches d → d.children.Pairwise fun a b =>
    a.stopOffset ≤ b.startOffset ∨ b.stopOffset ≤ a.startOffset

namespace NodeDocument.Nested

variable {top d : NodeDocument} {built : Built}

/-- Sorted children **follow** one another. -/
theorem pairwise_children (h : top.Nested) (hd : top.Reaches d) :
    (stableSort startOffset d.children).Pairwise fun a b => a.stopOffset ≤ b.startOffset := by
  have hperm : (stableSort startOffset d.children).Perm d.children := List.perm_insertionSort _ _
  have hapart := (hperm.pairwise_iff fun hab => hab.symm).mpr (h.apart d hd)
  refine ((pairwise_stableSort d.children).and hapart).imp_of_mem ?_
  rintro a b - hb ⟨hle, hab | hba⟩
  · exact hab
  · have hlt := h.lt b (hd.child (mem_stableSort.mp hb))
    omega

/-- All that is below an object **starts within its range**. -/
theorem startOffset_mem (h : top.Nested) (htable : NodeTable top built) (hd : top.Reaches d)
    {n : Node} (hn : n ∈ (built.node d).preorder) :
    d.startOffset ≤ n.startOffset ∧ n.startOffset < d.stopOffset := by
  induction d using induction_children with
  | h d ih =>
      rw [Node.preorder_eq, List.mem_cons, List.mem_flatMap] at hn
      rcases hn with rfl | ⟨child, hchild, hn⟩
      · rw [htable.startOffset hd]
        exact ⟨le_refl _, h.lt d hd⟩
      · obtain ⟨c, hc, rfl⟩ := List.mem_map.mp ((htable.childNodes hd).subset hchild)
        obtain ⟨hstart, hstop⟩ := ih c hc (hd.child hc) hn
        obtain ⟨hstart', hstop'⟩ := h.within d hd c hc
        exact ⟨hstart'.trans hstart, hstop.trans_le hstop'⟩

/-- **A walk goes forward**: it meets nodes in the order of where they start. -/
theorem pairwise_preorder (h : top.Nested) (htable : NodeTable top built) (hd : top.Reaches d) :
    (built.node d).preorder.Pairwise fun a b => a.startOffset ≤ b.startOffset := by
  induction d using induction_children with
  | h d ih =>
      have hmem : ∀ c ∈ stableSort startOffset d.children, c ∈ d.children :=
        fun c hc => mem_stableSort.mp hc
      have hfirst : ∀ n ∈ (built.node d).preorder,
          (built.node d).startOffset ≤ n.startOffset := by
        intro n hn
        rw [htable.startOffset hd]
        exact (h.startOffset_mem htable hd hn).1
      rw [Node.preorder_eq] at hfirst ⊢
      refine List.pairwise_cons.mpr ⟨fun n hn => hfirst n (List.mem_cons_of_mem _ hn), ?_⟩
      rw [htable.childNodes_eq hd fun c hc => h.start c (hd.child hc), List.flatMap_map,
        List.pairwise_flatMap]
      refine ⟨fun c hc => ih c (hmem c hc) (hd.child (hmem c hc)), ?_⟩
      -- whatever is below a child starts before the child ends, and so before the next one starts
      refine (h.pairwise_children hd).imp_of_mem fun ha hb hab n hn m hm => ?_
      have hstop := (h.startOffset_mem htable (hd.child (hmem _ ha)) hn).2
      have hstart := (h.startOffset_mem htable (hd.child (hmem _ hb)) hm).1
      omega

end NodeDocument.Nested

end TreeLint
