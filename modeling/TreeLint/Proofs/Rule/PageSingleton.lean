import TreeLint.Proofs.Build.Correspondence
import TreeLint.Proofs.Rule.SharedWalk
import TreeLint.Rule.PageSingleton

/-!
# Page Singletons, Told from the Document

The rule on page singletons looks at a class of the tree, at its members and at their values, and
all of these were made from a document. Here its verdict is told **from the document**: which class
declarations lack their singleton (`missingSingleton?`) is said in terms of keys, type words and
literal values, and the rule reports exactly these classes, at each visit of a walk.

## Main results

* `isSingletonField_node`, `isDefaultConstructible_node`: what the rule asks about a node is what
  the document says.
* `check_node`: the verdict on a class.
* `reported_of_ofDocument`: what the rule reports on the tree of a document.
-/

namespace TreeLint.PageSingleton

/-! ### Classes of a document -/

/-- Whether a class member is a constructor. -/
def isConstructor (m : NodeDocument) : Bool :=
  m.type == "MethodDefinition" && (m.getD "kind").str? == some "constructor"

/-- Whether a class can be made **without arguments**: its first constructor, if any, has no
function or one without parameters. -/
def takesNoArguments (d : NodeDocument) : Bool :=
  match d.classMembers.find? isConstructor with
  | none => true
  | some method =>
    match method.valueNode? with
    | none => true
    | some function => (function.nodesAt "params").isEmpty

/-- Whether an object is `new` of a class, without arguments. -/
def isNewOf (className : String) (v : NodeDocument) : Bool :=
  v.type == "NewExpression" &&
    (v.nodeAt? "callee").bind NodeDocument.identifierName? == some className &&
    (v.nodesAt "arguments").isEmpty

/-- Whether a class member is declared as the singleton should be, apart from its value. -/
def isSingletonDeclaration (fieldName : String) (m : NodeDocument) : Bool :=
  (m.type == "PropertyDefinition" || m.type == "ClassProperty") &&
    (m.getD "static").isTrue && (m.getD "readonly").isTrue && !(m.getD "computed").isTrue &&
    (m.getD "accessibility").str? == some "public" &&
    (m.nodeAt? "key").bind NodeDocument.identifierName? == some fieldName

/-- Whether a class member is the **singleton** of the class. -/
def isSingleton (fieldName className : String) (m : NodeDocument) : Bool :=
  isSingletonDeclaration fieldName m && m.valueNode?.any (isNewOf className)

/-- The name of a page class that **lacks its singleton**. -/
def missingSingleton? (suffix fieldName : String) (d : NodeDocument) : Option String :=
  if d.type = "ClassDeclaration" then
    match (d.nodeAt? "id").bind NodeDocument.identifierName? with
    | none => none
    | some name =>
      if !name.isEmpty && name.endsWith suffix && !(d.getD "abstract").isTrue &&
          takesNoArguments d && !d.classMembers.any (isSingleton fieldName name) then some name
      else none
  else none

/-! ### The verdict of the rule -/

section Verdict

variable {top d : NodeDocument} {built : Built}

/-- A class is told by **its type**. -/
theorem kind_eq_classDeclaration_iff :
    d.kind = .classDeclaration ↔ d.type = "ClassDeclaration" :=
  NodeDocument.kind_eq_iff (by decide) (by decide)

/-- Labels make no difference to **a text**. -/
theorem str?_erase {ι : Type} (v : Value ι) : v.erase.str? = v.str? := by
  cases v <;> rfl

/-- Whether a member is a constructor is told **by its object**. -/
theorem isConstructor_node (h : NodeTable top built) (hd : top.Reaches d) :
    ((built.node d).kind == .methodDefinition &&
      (built.node d).methodKind.str? == some "constructor") = isConstructor d := by
  have hmade := h.made d hd
  have hkind : d.kind = .methodDefinition ↔ d.type = "MethodDefinition" :=
    NodeDocument.kind_eq_iff (by decide) (by decide)
  rw [hmade.kind, hmade.methodKind, isConstructor]
  by_cases htype : d.type = "MethodDefinition"
  · simp [hkind.mpr htype, htype, str?_erase]
  · have hkind' : (d.kind == .methodDefinition) = false :=
      beq_eq_false_iff_ne.mpr (mt hkind.mp htype)
    have htype' : (d.type == "MethodDefinition") = false := beq_eq_false_iff_ne.mpr htype
    rw [hkind', htype', Bool.false_and, Bool.false_and]

/-- Whether the constructor takes no parameters is told by **the first constructor** among the
members. -/
theorem isDefaultConstructible_node (h : NodeTable top built) (hd : top.Reaches d)
    (hkind : d.kind = .classDeclaration) (hbody : d.hasClassBody) :
    isDefaultConstructible (built.node d) = takesNoArguments d := by
  have hconstructor : constructor? (built.node d) =
      (d.classMembers.find? isConstructor).map built.node := by
    rw [constructor?, h.classBody hd hkind hbody, List.find?_map, ← List.head?_filter,
      ← List.head?_filter]
    refine congrArg (Option.map built.node ∘ List.head?) (List.filter_congr fun m hm => ?_)
    exact isConstructor_node h (NodeTable.reaches_classMembers hd hm)
  rw [isDefaultConstructible, hconstructor, takesNoArguments]
  cases hfind : d.classMembers.find? isConstructor with
  | none => rfl
  | some method =>
      have hmethod := NodeTable.reaches_classMembers hd (List.mem_of_find?_eq_some hfind)
      simp only [Option.map_some, h.value hmethod]
      cases hvalue : method.valueNode? with
      | none => rfl
      | some function =>
          simp [h.params (NodeTable.reaches_valueNode? hmethod hvalue)]

/-- A node is named by its name **as an identifier**. -/
theorem isNamed_eq (n : Node) (name : String) :
    n.isNamed name = (n.identifierName? == some name) := by
  rw [Node.isNamed, Node.identifierName?]
  cases n.isIdentifier <;> simp

/-- Whether a value is made from a class is told **by its object**. -/
theorem isNewOf_node (h : NodeTable top built) (hd : top.Reaches d) (className : String) :
    (if (built.node d).kind = .newExpression then do
        let callee ← (built.node d).requireCallee
        return callee.isNamed className && (built.node d).arguments.isEmpty
      else .ok false) = .ok (isNewOf className d) := by
  have hmade := h.made d hd
  have hkind : d.kind = .newExpression ↔ d.type = "NewExpression" :=
    NodeDocument.kind_eq_iff (by decide) (by decide)
  rw [hmade.kind, isNewOf]
  by_cases htype : d.type = "NewExpression"
  · have hsome := (NodeDocument.calleeWith_eq_ok hmade.callee).2 (by rw [hkind.mpr htype]; rfl)
    rw [h.callee hd, Option.isSome_map] at hsome
    obtain ⟨c, hc⟩ := Option.isSome_iff_exists.mp hsome
    have hrequire : (built.node d).requireCallee = .ok (built.node c) := by
      rw [Node.requireCallee, h.callee hd, hc]
      rfl
    rw [if_pos (hkind.mpr htype), hrequire, hc, htype, h.arguments hd]
    simp [bind, Except.bind, pure, Except.pure, isNamed_eq,
      h.identifierName? (NodeTable.reaches_nodeAt? hd rfl hc)]
  · rw [if_neg (mt hkind.mp htype), beq_eq_false_iff_ne.mpr htype, Bool.false_and, Bool.false_and]

/-- Whether a member is declared as the singleton is told **by its object**. -/
theorem isDeclaredSingleton_node (h : NodeTable top built) (hd : top.Reaches d)
    (fieldName : String) :
    isDeclaredSingleton fieldName (built.node d) = isSingletonDeclaration fieldName d := by
  have hmade := h.made d hd
  have hkind : d.kind = .propertyDefinition ↔
      d.type = "PropertyDefinition" ∨ d.type = "ClassProperty" := by
    have hother : Kind.propertyDefinition ≠ .other := by decide
    rw [NodeDocument.kind, Kind.ofType_eq_iff hother, and_iff_right rfl]
    rfl
  rw [isDeclaredSingleton, isSingletonDeclaration, hmade.kind, hmade.modifiers]
  by_cases hproperty : d.kind = .propertyDefinition
  · have htype : (d.type == "PropertyDefinition" || d.type == "ClassProperty") = true := by
      simpa using hkind.mp hproperty
    rw [h.fieldName hd hproperty, htype, hproperty, NodeDocument.modifiers, Bool.eq_iff_iff]
    simp only [Bool.and_eq_true]
    tauto
  · have htype : (d.type == "PropertyDefinition" || d.type == "ClassProperty") = false := by
      simpa using mt hkind.mpr hproperty
    rw [beq_eq_false_iff_ne.mpr hproperty, htype]
    simp

/-- A class member is the singleton field **if its object declares it**. -/
theorem isSingletonField_node (h : NodeTable top built) (hd : top.Reaches d)
    (fieldName className : String) :
    isSingletonField fieldName className (built.node d) =
      .ok (isSingleton fieldName className d) := by
  rw [isSingletonField, isSingleton, isDeclaredSingleton_node h hd, h.value hd]
  cases isSingletonDeclaration fieldName d with
  | false => rfl
  | true =>
      cases hvalue : d.valueNode? with
      | none => rfl
      | some v => exact isNewOf_node h (NodeTable.reaches_valueNode? hd hvalue) className

/-- The report on a class that lacks its singleton. -/
def finding (fieldName : String) (n : Node) (className : String) : Finding :=
  ⟨n, .missingSingleton, message fieldName className⟩

/-- **The verdict on a class** is what its object says. -/
theorem check_node (h : NodeTable top built) (hd : top.Reaches d)
    (hkind : d.kind = .classDeclaration) (hbody : d.hasClassBody) (suffix fieldName : String) :
    check suffix fieldName (built.node d) =
      .ok ((missingSingleton? suffix fieldName d).map
        (finding fieldName (built.node d))).toList := by
  have hany : ∀ className,
      (built.node d).body.anyM (isSingletonField fieldName className) =
        .ok (d.classMembers.any (isSingleton fieldName className)) := by
    intro className
    rw [h.classBody hd hkind hbody]
    exact anyM_map_of_ok fun m hm =>
      isSingletonField_node h (NodeTable.reaches_classMembers hd hm) fieldName className
  rw [check, pageName?, missingSingleton?, if_pos (kind_eq_classDeclaration_iff.mp hkind),
    h.className hd hkind, isDefaultConstructible_node h hd hkind hbody, (h.made d hd).modifiers,
    NodeDocument.modifiers]
  cases (d.nodeAt? "id").bind NodeDocument.identifierName? with
  | none => rfl
  | some name =>
      simp only
      cases !name.isEmpty && name.endsWith suffix && !(d.getD "abstract").isTrue &&
        takesNoArguments d with
      | false => rfl
      | true =>
          simp only [if_true, hany, Bool.true_and, bind, Except.bind]
          cases d.classMembers.any (isSingleton fieldName name) <;> rfl

end Verdict

/-! ### The reports -/

/-- The diagnostic on a class that lacks its singleton, **anchored** at the class. -/
def diagnostic (severity : Severity) (fieldName : String) (n : Node) (className : String) :
    Diagnostic where
  node := n
  violation := .missingSingleton
  message := message fieldName className
  ruleId := "PAGE001"
  ruleName := "enforce-page-singleton"
  severity

section Reports

variable {top : NodeDocument} {built : Built} {suffix fieldName : String}

/-- The rule takes every node of the tree. -/
theorem takes_node (h : NodeTable top built) {d : NodeDocument} (hd : top.Reaches d)
    (hbody : d.type = "ClassDeclaration" → d.hasClassBody) :
    (rule suffix fieldName).Takes (built.node d) := by
  intro hlistens
  have hkind : d.kind = .classDeclaration :=
    (h.made d hd).kind.symm.trans (List.mem_singleton.mp hlistens)
  have htype := kind_eq_classDeclaration_iff.mp hkind
  exact ⟨_, check_node h hd hkind (hbody htype) suffix fieldName⟩

/-- After visits of objects the rule has reported those that lack their singleton. -/
theorem reported_after (h : NodeTable top built)
    (hbody : ∀ d, top.Reaches d → d.type = "ClassDeclaration" → d.hasClassBody)
    (severity : Severity) {visits : List NodeDocument} (hvisits : ∀ d ∈ visits, top.Reaches d) :
    (RuleRun.after { rule := rule suffix fieldName, severity } (visits.map built.node)).reported =
      visits.filterMap fun d => (missingSingleton? suffix fieldName d).map
        (diagnostic severity fieldName (built.node d)) := by
  induction visits with
  | nil => rfl
  | cons d visits ih =>
      obtain ⟨hd, hrest⟩ := List.forall_mem_cons.mp hvisits
      rw [List.filterMap_cons, ← ih hrest]
      have hlistens : (built.node d).kind ∈ (rule suffix fieldName).listens ↔
          d.kind = .classDeclaration := by
        rw [(h.made d hd).kind]
        exact List.mem_singleton
      by_cases hkind : d.kind = .classDeclaration
      · have htype := kind_eq_classDeclaration_iff.mp hkind
        have hfindings : (rule suffix fieldName).findings (built.node d) =
            ((missingSingleton? suffix fieldName d).map
              (finding fieldName (built.node d))).toList :=
          Rule.findings_of_check (check_node h hd hkind (hbody d hd htype) _ _)
        simp only [RuleRun.after, Rule.heeded, List.map_cons, List.filter_cons, hlistens, hkind,
          decide_true, if_true, List.flatMap_cons, hfindings, List.nil_append]
        cases missingSingleton? suffix fieldName d <;> rfl
      · have hmissing : missingSingleton? suffix fieldName d = none := by
          rw [missingSingleton?, if_neg (mt kind_eq_classDeclaration_iff.mpr hkind)]
        simp [RuleRun.after, Rule.heeded, hlistens, hkind, hmissing]

end Reports

/-- **The reports of the rule on page singletons.** Let a document be well-formed and have a tree,
and let the body of every class declaration, if there is one, be a class body with a list. Then the
rule walks the tree to its end. The walk visits the objects of the document, each at each of its
places, and the rule reports exactly the visits of classes that lack their singleton, in the order
of the walk. -/
theorem reported_of_ofDocument {document : Document} {top : NodeDocument} {root : Node}
    (htop : document.node? = some top) (hwf : top.WellFormed)
    (hroot : Node.ofDocument document = .ok root)
    (hbody : ∀ d, top.Reaches d → d.type = "ClassDeclaration" → d.hasClassBody)
    (suffix fieldName : String) (severity : Severity) :
    ∃ runs, RuleRun.walkAll [{ rule := rule suffix fieldName, severity }] (.node root) =
        ⟨runs, none⟩ ∧
      ∃ visits : List NodeDocument, visits.Perm top.postOrder ∧
        visits.map NodeDocument.label = root.preorder.map Node.label ∧
        runs.flatMap RuleRun.reported = (visits.zip root.preorder).filterMap fun (d, n) =>
          (missingSingleton? suffix fieldName d).map (diagnostic severity fieldName n) := by
  obtain ⟨built, htable, rfl⟩ := exists_table hwf htop hroot
  obtain ⟨visits, hperm, hvisits⟩ := htable.exists_visits (.refl top)
  have hreaches : ∀ d ∈ visits, top.Reaches d :=
    fun d hd => NodeDocument.mem_postOrder.mp (hperm.subset hd)
  -- every node of the walk is made from an object, and the rule takes it by what the object says
  have hpass : ∀ n ∈ (built.node top).preorder,
      RuleRun.Pass [{ rule := rule suffix fieldName, severity }] n := by
    intro n hn
    rw [hvisits] at hn
    obtain ⟨d, hd, rfl⟩ := List.mem_map.mp hn
    have hd := hreaches d hd
    obtain ⟨children, hchildren, -⟩ := (htable.made d hd).exists_children
    refine ⟨⟨children, hchildren⟩, fun run hrun => ?_⟩
    rw [List.mem_singleton.mp hrun]
    exact takes_node htable hd (hbody d hd)
  have hkinds : ∀ run ∈ [({ rule := rule suffix fieldName, severity } : RuleRun)],
      run.rule.listens.Nodup := by
    intro run hrun
    rw [List.mem_singleton.mp hrun]
    exact List.nodup_singleton _
  refine ⟨_, RuleRun.walkAll_of_pass hkinds hpass, visits, hperm, ?_, ?_⟩
  · rw [hvisits, List.map_map]
    exact List.map_congr_left fun d hd => ((htable.made d (hreaches d hd)).label).symm
  · have hzip : visits.zip (visits.map built.node) = visits.map fun d => (d, built.node d) := by
      simpa using (List.zip_map' : (visits.map id).zip (visits.map built.node) = _)
    rw [List.map_singleton, List.flatMap_singleton, hvisits, hzip, List.filterMap_map]
    have hfinish : ∀ run : RuleRun, run.rule = rule suffix fieldName →
        run.finish.reported = run.reported := by
      intro run hrun
      rw [RuleRun.finish, hrun]
      exact List.append_nil _
    rw [hfinish _ rfl]
    exact reported_after htable hbody severity hreaches

/-- Three page classes: one whose constructor takes no parameters and that has no singleton, one
that declares its singleton, and one that is abstract. -/
def pageClasses : Json :=
  .obj () [("type", .str "Program"), ("body", .arr [
    .obj () [("type", .str "ClassDeclaration"),
      ("id", .obj () [("type", .str "Identifier"), ("name", .str "LoginPage")]),
      ("body", .obj () [("type", .str "ClassBody"), ("body", .arr [
        .obj () [("type", .str "MethodDefinition"), ("kind", .str "constructor"),
          ("value", .obj () [("type", .str "FunctionExpression"), ("params", .arr [])])]])])],
    .obj () [("type", .str "ClassDeclaration"),
      ("id", .obj () [("type", .str "Identifier"), ("name", .str "HomePage")]),
      ("body", .obj () [("type", .str "ClassBody"), ("body", .arr [
        .obj () [("type", .str "ClassProperty"), ("static", .bool true), ("readonly", .bool true),
          ("accessibility", .str "public"),
          ("key", .obj () [("type", .str "Identifier"), ("name", .str "INSTANCE")]),
          ("value", .obj () [("type", .str "NewExpression"), ("arguments", .arr [.null]),
            ("callee", .obj () [("type", .str "Identifier"), ("name", .str "HomePage")])])]])])],
    .obj () [("type", .str "ClassDeclaration"), ("abstract", .bool true),
      ("id", .obj () [("type", .str "Identifier"), ("name", .str "BasePage")])]])]

/-- Of the three classes the first one is reported. -/
theorem reported_pageClasses : ∃ top root,
    pageClasses.toDocument.node? = some top ∧ top.WellFormed ∧
    Node.ofDocument pageClasses.toDocument = .ok root ∧
    (∀ d, top.Reaches d → d.type = "ClassDeclaration" → d.hasClassBody) ∧
    top.postOrder.filterMap (missingSingleton? "Page" "INSTANCE") = ["LoginPage"] ∧
    ∃ runs, RuleRun.walkAll [{ rule := rule "Page" "INSTANCE", severity := .error }] (.node root) =
        ⟨runs, none⟩ ∧
      ∃ visits : List NodeDocument, visits.Perm top.postOrder ∧
        visits.map NodeDocument.label = root.preorder.map Node.label ∧
        runs.flatMap RuleRun.reported = (visits.zip root.preorder).filterMap fun (d, n) =>
          (missingSingleton? "Page" "INSTANCE" d).map (diagnostic .error "INSTANCE" n) := by
  have hbody : ∀ top ∈ pageClasses.toDocument.node?, ∀ d ∈ top.postOrder,
      d.type = "ClassDeclaration" → d.hasClassBody := by decide +kernel
  have hmissing : ∀ top ∈ pageClasses.toDocument.node?,
      top.postOrder.filterMap (missingSingleton? "Page" "INSTANCE") = ["LoginPage"] := by
    decide +kernel
  have hisOk : (Node.ofDocument pageClasses.toDocument).isOk := by decide +kernel
  obtain ⟨top, htop⟩ : ∃ top, pageClasses.toDocument.node? = some top := ⟨_, rfl⟩
  have hwf : top.WellFormed := wellFormed_of_toDocument (by decide) htop
  have hbody' : ∀ d, top.Reaches d → d.type = "ClassDeclaration" → d.hasClassBody :=
    fun d hd => hbody top htop d (NodeDocument.mem_postOrder.mpr hd)
  cases hroot : Node.ofDocument pageClasses.toDocument with
  | error fault =>
      rw [hroot] at hisOk
      exact absurd hisOk Bool.false_ne_true
  | ok root =>
      exact ⟨top, root, htop, hwf, rfl, hbody', hmissing top htop,
        reported_of_ofDocument htop hwf hroot hbody' "Page" "INSTANCE" .error⟩

end TreeLint.PageSingleton
