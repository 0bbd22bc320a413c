import TreeLint.Literal.Quotation

/-!
# Texts with Expressions in Them

Between braces in a text that is marked so stands an expression, with a sign for how to convert it
and a format after it, if they are wanted; in the format can stand expressions again. A brace that
is written twice is none. `quotations` joins texts that stand side by side, of all kinds.

The expressions themselves are read by `inner`, which gives the text of a fault.
-/

namespace TreeLint.Literal

/-- How deep expressions can stand in the formats of others. -/
def formatDepth : Nat := 2

/-! ### Parts of the text -/

/-- Whether a character is a brace. -/
def isBrace (c : Char) : Bool := c = '\x7b' || c = '\x7d'

/-- How many characters after the letter of an escape belong to its name: those up to a closing
brace, or a single one. -/
def nameLength : List Char → Nat
  | '\x7b' :: rest => (rest.takeWhile (· != '\x7d')).length + 2
  | _ => 1

/-- A brace ends a part of a text: its characters, what comes after it, and whether the brace is
written twice and so belongs to it. That can be only outside of formats. -/
def endPart (isTop : Bool) (taken : List Char) (c : Char) (rest : List Char) :
    Except FormatFault (List Char × List Char × Bool) :=
  if isTop && rest.head? = some c then .ok ((c :: taken).reverse, rest.drop 1, true)
  else if isTop && c = '\x7d' then .error .singleClosing
  else .ok (taken.reverse, c :: rest, false)

/-- The characters up to a brace, or up to the end. `taken` holds those before, in reverse. -/
def plainPart (isRaw isTop : Bool) (taken : List Char) (fuel : Nat) (cs : List Char) :
    Except FormatFault (List Char × List Char × Bool) :=
  match fuel, cs with
  | 0, _ | _, [] => .ok (taken.reverse, cs, false)
  | fuel + 1, c :: rest =>
    if c = '\\' && !isRaw then
      match rest with
      | [] => .ok ((c :: taken).reverse, [], false)
      | 'N' :: after =>
        let n := nameLength after
        plainPart isRaw isTop ((after.take n).reverse ++ 'N' :: c :: taken) fuel (after.drop n)
      | d :: after =>
        if isBrace d then endPart isTop (c :: taken) d after
        else plainPart isRaw isTop (d :: c :: taken) fuel after
    else if isBrace c then endPart isTop taken c rest
    else plainPart isRaw isTop (c :: taken) fuel rest

/-- Whether a character ends an expression outside of brackets. -/
def endsExpression (c : Char) : Bool := ['!', ':', '\x7d', '='].contains c

/-- The quotes that an expression is inside of: which, and whether there are three. -/
abbrev InnerQuote := Option (Char × Bool)

/-- The characters of an expression up to what ends it, and what comes from there on. `brackets`
are those that are open, and `taken` are the characters before, in reverse. -/
def expressionPart (quote : InnerQuote) (brackets taken : List Char) (fuel : Nat)
    (cs : List Char) : Except FormatFault (List Char × List Char) :=
  match fuel, cs with
  | 0, _ | _, [] =>
    match quote, brackets with
    | some _, _ => .error .unterminated
    | none, opening :: _ => .error (.unmatched opening)
    | none, [] => .ok (taken.reverse, [])
  | fuel + 1, c :: rest =>
    let isTriple := rest.take 2 = [c, c]
    let skip (quote : InnerQuote) (count : Nat) :=
      expressionPart quote brackets ((rest.take count).reverse ++ c :: taken) fuel
        (rest.drop count)
    if c = '\\' then .error .backslash
    else
      match quote with
      | some (q, ofThree) =>
        if c = q && (!ofThree || isTriple) then skip none (if ofThree then 2 else 0)
        else skip quote 0
      | none =>
        if isQuote c then skip (some (c, isTriple)) (if isTriple then 2 else 0)
        else if ['(', '[', '\x7b'].contains c then
          if bracketLimit ≤ brackets.length then .error .tooManyBrackets
          else expressionPart none (c :: brackets) (c :: taken) fuel rest
        else if c = '#' then .error .comment
        else if brackets.isEmpty && (endsExpression c || c = '<' || c = '>') then
          if rest.head? = some '=' && c != ':' && c != '\x7d' then skip none 1
          else if c = '<' || c = '>' then skip none 0
          else .ok (taken.reverse, c :: rest)
        else
          match [(')', '('), (']', '['), ('\x7d', '\x7b')].lookup c, brackets with
          | some _, [] => .error (.unmatched c)
          | some opening, o :: brackets =>
            if o = opening then expressionPart none brackets (c :: taken) fuel rest
            else .error (.mismatched c o)
          | none, _ => skip none 0

/-! ### The whole text -/

/-- Whether a character is blank in an expression. -/
def isBlankInExpression (c : Char) : Bool := c = ' ' || c = '\t' || c = '\n' || c = '\x0c'

/-- An expression has to be there, and right. `rest` starts with what ended it. -/
def checkExpression (inner : List Char → Option String) (e rest : List Char) :
    Except FormatFault Unit :=
  if e.all isBlankInExpression then
    match rest with
    | c :: _ => .error (if c = '\x7d' then .empty else .missingBefore c)
    | [] => .error .empty
  else
    match inner ('(' :: (e ++ [')'])) with
    | some message => .error (.expression message)
    | none => .ok ()

/-- What comes after the sign for how to convert an expression, if it is here. -/
def afterConversion : List Char → Except FormatFault (List Char)
  | '!' :: [] => .error .unclosed
  | '!' :: c :: rest => if ['s', 'r', 'a'].contains c then .ok rest else .error .badConversion
  | rest => .ok rest

/-- What comes after a text with expressions in it, or after a format: nothing, or its closing
brace. `level` says how many expressions are around. -/
def checkFormat (inner : List Char → Option String) (isRaw : Bool) (level fuel : Nat)
    (cs : List Char) : Except ConstantFault (List Char) := do
  match fuel with
  | 0 => return []
  | fuel + 1 =>
    let (part, rest, isDoubled) ←
      (plainPart isRaw (level = 0) [] (cs.length + 1) cs).mapError .format
    if let some f := if isRaw then none else escapeFault? 0 part then throw f
    if isDoubled then checkFormat inner isRaw level fuel rest
    else
      match rest with
      | [] => if level = 0 then return [] else throw (.format .unclosed)
      | '\x7d' :: _ => return rest
      | _ :: rest =>
        if formatDepth ≤ level then throw (.format .tooDeep)
        let (e, rest) ← (expressionPart none [] [] (rest.length + 1) rest).mapError .format
        if rest.isEmpty then throw (.format .unclosed)
        (checkExpression inner e rest).mapError .format
        let rest := if rest.head? = some '=' then rest.drop 1 else rest
        let rest ← (afterConversion rest).mapError .format
        let rest ← match rest with
          | [':'] => throw (.format .unclosed)
          | ':' :: rest => checkFormat inner isRaw (level + 1) fuel rest
          | rest => pure rest
        match rest with
        | '\x7d' :: rest => checkFormat inner isRaw level fuel rest
        | _ => throw (.format .unclosed)

/-! ### Texts side by side -/

/-- Whether a text stands for something. -/
def checkQuotation (inner : List Char → Option String) (l : Letters) (body : List Char) :
    Except ConstantFault Unit :=
  let fault? : Option ConstantFault :=
    if l.bytes then
      if body.any fun c => 0x80 ≤ c.toNat then some .notAByte
      else if l.raw then none
      else byteEscapeFault? 0 body
    else if l.raw then none
    else escapeFault? 0 body
  if l.format then do
    let _ ← checkFormat inner l.raw 0 (body.length + 1) body
  else
    match fault? with
    | some f => .error f
    | none => .ok ()

/-- Texts side by side are one, if all or none of them are bytes. Whether they are bytes, and
whether expressions stand in them. -/
def joinQuotations (inner : List Char → Option String) (isBytes hasFormat : Bool) :
    List (List Char) → Except ConstantFault (Bool × Bool)
  | [] => .ok (isBytes, hasFormat)
  | cs :: rest => do
    let (l, body) := splitQuotation cs
    if l.bytes != isBytes && l.format then throw .mixed
    checkQuotation inner l body
    if l.bytes != isBytes then throw .mixed
    joinQuotations inner isBytes (hasFormat || l.format) rest

/-- What texts side by side are: whether they are bytes, and whether expressions stand in them. -/
def quotations (inner : List Char → Option String) (texts : List (List Char)) :
    Except ConstantFault (Bool × Bool) :=
  joinQuotations inner (splitQuotation (texts.headD [])).1.bytes false texts

end TreeLint.Literal
