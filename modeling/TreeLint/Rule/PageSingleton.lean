import TreeLint.Rule.Basic

/-!
# Page Singletons

A page class that can be made without arguments must declare its one instance:
`public static readonly INSTANCE = new ClassName();`. A near miss, such as a field with
other modifiers, of another class or made with arguments, counts as no declaration.
-/

namespace TreeLint.PageSingleton

/-- The constructor of a class, if it declares one. -/
def constructor? (classNode : Node) : Option Node :=
  classNode.body.find? fun member =>
    member.kind == .methodDefinition && member.methodKind.str? == some "constructor"

/-- Whether the constructor is missing or takes no parameters. -/
def isDefaultConstructible (classNode : Node) : Bool :=
  match constructor? classNode with
  | none => true
  | some method =>
    match method.value with
    | none => true
    | some function => function.params.isEmpty

/-- Whether a class member is declared as the singleton field should be, apart from its
value. -/
def isDeclaredSingleton (fieldName : String) (member : Node) : Bool :=
  member.kind == .propertyDefinition && member.modifiers.isStatic &&
    !member.modifiers.isComputed && member.name == some fieldName &&
    member.modifiers.isReadonly && member.modifiers.accessibility == some "public"

/-- Whether a class member is the **singleton field**: declared as one, and made by `new`
from the class itself without arguments. -/
def isSingletonField (fieldName className : String) (member : Node) : Except Malformed Bool :=
  if isDeclaredSingleton fieldName member then
    match member.value with
    | none => .ok false
    | some value =>
      if value.kind = .newExpression then do
        let callee ← value.requireCallee
        return callee.isNamed className && value.arguments.isEmpty
      else .ok false
  else .ok false

/-- The name of a class that the rule applies to. -/
def pageName? (suffix : String) (classNode : Node) : Option String :=
  match classNode.name with
  | none => none
  | some name =>
    if !name.isEmpty && name.endsWith suffix && !classNode.modifiers.isAbstract &&
        isDefaultConstructible classNode then some name
    else none

/-- The report on a class without its singleton. -/
def message (fieldName className : String) : String :=
  s!"Class '{className}' must declare: public static readonly {fieldName} = new {className}();"

/-- What is found at a class. -/
def check (suffix fieldName : String) (classNode : Node) : Except Malformed (List Finding) :=
  match pageName? suffix classNode with
  | none => .ok []
  | some className => do
    if ← classNode.body.anyM (isSingletonField fieldName className) then return []
    else return [⟨classNode, .missingSingleton, message fieldName className⟩]

/-- The rule for a suffix of page classes and a name of the field. -/
def rule (suffix fieldName : String) : Rule where
  id := "PAGE001"
  name := "enforce-page-singleton"
  description :=
    s!"Non-abstract '*{suffix}' classes with a zero-arg (or missing) constructor must " ++
      s!"declare public static readonly {fieldName}"
  listens := [.classDeclaration]
  check := check suffix fieldName
  finish _ := []

end TreeLint.PageSingleton
