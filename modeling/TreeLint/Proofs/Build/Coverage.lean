import TreeLint.Proofs.Build.Correspondence
import TreeLint.Proofs.Build.Labels
import TreeLint.Proofs.Walk.Listening

/-!
# Walks and References

Rules get at nodes in two ways. A walk shows them one node after another by following children, and
from a node they follow its references: to its callee, its members, its value. The two ways cover
**the same nodes** in a tree that was made of a document, although the members of a class are no
children of it and the order of children is not that of the document. Each object that describes a
node is entered once, and no reference leads out of what is entered.

## Main results

* `NodeTable.preorder_subset`: a walk of a tree contains the walks of its nodes.
* `NodeTable.mem_preorder_of_mem_referents`: a node refers to nodes below it.
* `walk_ofDocument`: a walk enters the node of every object once, and all that can be got at.
-/

namespace TreeLint

namespace NodeTable

variable {top d e : NodeDocument} {built : Built}

/-- The children of a node are the nodes of **all child objects**, each once. -/
theorem childNodes (h : NodeTable top built) (hd : top.Reaches d) :
    (built.node d).childNodes.Perm (d.children.map built.node) := by
  obtain ⟨children, hchildren, hperm⟩ := (h.made d hd).exists_children
  rw [Node.childNodes_eq_of_children hchildren, ← h.nodes_partsOf hd]
  exact hperm

/-- A walk of a tree **contains the walk** of each object below. -/
theorem preorder_subset (h : NodeTable top built) (hd : top.Reaches d) (hde : d.Reaches e) :
    (built.node e).preorder ⊆ (built.node d).preorder := by
  induction hde with
  | refl => exact List.Subset.refl _
  | @tail e c hde hc ih =>
      refine List.Subset.trans (fun m hm => ?_) ih
      have hchild : built.node c ∈ (built.node e).childNodes :=
        (h.childNodes (hd.trans hde)).mem_iff.mpr (List.mem_map_of_mem hc)
      rw [Node.preorder_eq]
      exact List.mem_cons_of_mem _ (List.mem_flatMap.mpr ⟨_, hchild, hm⟩)

/-- Whatever a node refers to **is below it**. -/
theorem mem_preorder_of_mem_referents (h : NodeTable top built) (hd : top.Reaches d) {m : Node}
    (hm : m ∈ (built.node d).referents) : m ∈ (built.node d).preorder := by
  induction d using NodeDocument.induction_children with
  | h d ih =>
      have hnodes := h.nodes_partsOf hd
      have hbelow : ∀ c ∈ d.children, (built.node c).preorder ⊆ (built.node d).preorder :=
        fun c hc => h.preorder_subset hd (.child (.refl d) hc)
      -- The members of a class are no children of it, but children of its body.
      rcases (h.made d hd).mem_referents hm with hpart | ⟨n, hpart, hmn⟩
      · rw [hnodes] at hpart
        obtain ⟨c, hc, rfl⟩ := List.mem_map.mp hpart
        exact hbelow c hc (Node.self_mem_preorder _)
      · rw [hnodes] at hpart
        obtain ⟨c, hc, rfl⟩ := List.mem_map.mp hpart
        exact hbelow c hc (ih c hc (hd.child hc) hmn)

/-- References **lead to nothing** that a walk does not enter. -/
theorem mem_preorder_of_leadsTo (h : NodeTable top built) {n m : Node}
    (hn : n ∈ (built.node top).preorder) (hm : n.LeadsTo m) : m ∈ (built.node top).preorder := by
  obtain ⟨visits, hvisits, hpreorder⟩ := h.exists_visits (.refl top)
  induction hm with
  | refl => exact hn
  | @tail k m _ hkm ih =>
      rw [hpreorder] at ih
      obtain ⟨e, he, rfl⟩ := List.mem_map.mp ih
      have hreaches : top.Reaches e := NodeDocument.mem_postOrder.mp (hvisits.subset he)
      exact h.preorder_subset (.refl top) hreaches (h.mem_preorder_of_mem_referents hreaches hkm)

/-- What is built from a document is **a tree**: wherever the walk gets, the children are nodes. -/
theorem isTree (h : NodeTable top built) : (built.node top).IsTree := by
  obtain ⟨visits, hvisits, hpreorder⟩ := h.exists_visits (.refl top)
  intro m hm
  rw [hpreorder] at hm
  obtain ⟨e, he, rfl⟩ := List.mem_map.mp hm
  obtain ⟨children, hchildren, -⟩ :=
    (h.made e (NodeDocument.mem_postOrder.mp (hvisits.subset he))).exists_children
  exact ⟨children, hchildren⟩

end NodeTable

/-- **No node is lost or seen twice.** In a document without shared objects, let no object have a
key twice, and let the document have a tree. Then a walk of the tree enters one node for each object
that describes a node and is held, directly or not, by the whole document, and it enters nothing
else. The node is the one made of the object. Whatever a node that is entered leads to, by parts and
children in any number of steps, is entered too. -/
theorem walk_ofDocument {document : Document} {root : Node} (hlabels : document.labels.Nodup)
    (hkeys : document.hasUniqueKeys) (h : Node.ofDocument document = .ok root) :
    ∃ top built, ∃ objects : List NodeDocument, document.node? = some top ∧ NodeTable top built ∧
      objects.Nodup ∧ (∀ d, d ∈ objects ↔ Relation.ReflTransGen NodeDocument.Holds top d) ∧
      ∃ entered, recorder.walk (.node root) [] = ⟨entered, none⟩ ∧
        entered = objects.map built.node ∧ (entered.map Node.label).Nodup ∧
        ∀ n ∈ entered, ∀ m, n.LeadsTo m → m ∈ entered := by
  cases htop : document.node? with
  | none =>
      rw [Node.ofDocument, htop] at h
      cases h
  | some top =>
      have hwf := NodeDocument.wellFormed_of_nodup_labels hlabels hkeys htop
      rw [NodeDocument.eq_toValue_of_node? htop] at hlabels
      obtain ⟨built, htable, rfl⟩ := exists_table hwf htop h
      obtain ⟨objects, hobjects, hpreorder⟩ := htable.exists_visits (.refl top)
      have hmem : ∀ d, d ∈ objects ↔ top.Reaches d := fun d =>
        hobjects.mem_iff.trans NodeDocument.mem_postOrder
      have hnodup : (objects.map NodeDocument.label).Nodup :=
        (hobjects.map _).nodup_iff.mpr (NodeDocument.nodup_labels_postOrder hlabels)
      have hentered : (objects.map built.node).map Node.label =
          objects.map NodeDocument.label := by
        rw [List.map_map]
        exact List.map_congr_left fun d hd => (htable.made d ((hmem d).mp hd)).label
      refine ⟨top, built, objects, rfl, htable, hnodup.of_map, fun d => ?_, _,
        walk_recorder htable.isTree, hpreorder, ?_, fun n hn m => htable.mem_preorder_of_leadsTo hn⟩
      · rw [hmem, NodeDocument.reaches_iff_holds]
      · rw [hpreorder, hentered]
        exact hnodup

/-- A class with one member. The body of the class is before its name in the document, and after it
in the source; the nodes among the comments and in the scope are not looked at. -/
def pageClass : Document :=
  .obj 0 [("type", .str "ClassDeclaration"),
    ("body", .obj 1 [("type", .str "ClassBody"), ("range", .arr [.int 10, .int 40]),
      ("body", .arr [.null, .obj 2 [("type", .str "PropertyDefinition"),
        ("key", .obj 3 [("type", .str "Identifier"), ("name", .str "page")]),
        ("value", .obj 4 [("type", .str "NewExpression"),
          ("callee", .obj 5 [("type", .str "Identifier"), ("name", .str "HomePage")])])]])]),
    ("comments", .arr [.obj 6 [("type", .str "Line")]]),
    ("scope", .obj 7 [("names", .arr [.obj 8 [("type", .str "Identifier")]])]),
    ("id", .obj 9 [("type", .str "Identifier"), ("name", .str "HomePage"),
      ("range", .arr [.int 6, .int 9])])]

/-- A walk of the class enters seven nodes, in the order of the source. -/
theorem walk_pageClass : pageClass.labels.Nodup ∧ pageClass.hasUniqueKeys ∧
    ∃ root, Node.ofDocument pageClass = .ok root ∧
      ∃ entered, recorder.walk (.node root) [] = ⟨entered, none⟩ ∧
        entered.map Node.label = [0, 9, 1, 2, 3, 4, 5] ∧
        ∀ n ∈ entered, ∀ m, n.LeadsTo m → m ∈ entered := by
  have hlabels : pageClass.labels.Nodup := by decide +kernel
  have hkeys : pageClass.hasUniqueKeys := by decide +kernel
  have hwalk : (Node.ofDocument pageClass).toOption.map
      (fun root => (recorder.walk (.node root) []).state.map Node.label) =
        some [0, 9, 1, 2, 3, 4, 5] := by decide +kernel
  cases hroot : Node.ofDocument pageClass with
  | error fault =>
      rw [hroot] at hwalk
      cases hwalk
  | ok root =>
      obtain ⟨-, -, -, -, -, -, -, entered, hentered, -, -, hleads⟩ :=
        walk_ofDocument hlabels hkeys hroot
      rw [hroot] at hwalk
      refine ⟨hlabels, hkeys, root, rfl, entered, hentered, ?_, hleads⟩
      simpa [Except.toOption, hentered] using hwalk

end TreeLint
