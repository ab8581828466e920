import WinterWind.Basic
import Mathlib.Data.List.Forall2

/-!
# XPath extraction (`src/core/xmlparser.cpp`)

`XMLParser::parse` over the functions of libxml2 that it calls, which are parameters (`LibXml`).

* `xmlNodeListGetString` returns a C string or a null pointer; a `std::string` built from a null
  pointer is undefined.
* A namespace node is an `xmlNs`, which has no child list: `node->xmlChildrenNode` is undefined.
* `assert(false)` ends the program, and without assertions leaves the null pointer.
* What is freed, and `xmlCleanupParser`, are left out.

Results:
* `parse_nodes`: every exit of `parse`, once the nodes are selected.
* **`onePerNode_iff`**: one string for each selected node, exactly if `FLAG_XML_SIMPLE` is not set
  or `xmlNodeListGetString` has a string for the children of each.
* `not_onePerNode_of_childless`: a selected node without children breaks it.
-/

namespace WinterWind.Utils

/-- The part of libxml2 that is called. -/
structure LibXml where
  /-- `xmlDoc` -/
  Doc : Type
  /-- `xmlXPathContext` -/
  Context : Type
  /-- `xmlNode` -/
  Node : Type
  xmlReadMemory : Bytes → Int → Option Doc
  htmlReadMemory : Bytes → Int → Option Doc
  xmlXPathNewContext : Doc → Option Context
  xmlXPathRegisterNs : Context → Bytes → Bytes → Context
  /-- The `nodesetval` of the object, if the expression is valid: the nodes in document order, or a
  null pointer. -/
  xmlXPathEvalExpression : Bytes → Context → Option (Option (List Node))
  /-- `xmlChildrenNode`, which a namespace node does not have. -/
  xmlChildrenNode : Node → Option (List Node)
  xmlNodeListGetString : Doc → List Node → Option Bytes
  xmlXPathCastNodeToString : Node → Bytes

/-- `XMLParserCustomNs`. -/
structure XMLParserCustomNs where
  pre : Bytes
  uri : Bytes

/-- `XMLParser::Mode`. -/
inductive Mode where
  | html
  | xml
  deriving DecidableEq

/-- `XMLParser`. -/
structure XMLParser where
  mode : Mode := .xml
  customXmlNs : List XMLParserCustomNs := []

/-- `XMLParser::Flag`. -/
inductive Flag where
  | simple
  | withoutTags
  | stripNewline

def Flag.value : Flag → Int32
  | simple => 0x01
  | withoutTags => 0x02
  | stripNewline => 0x04

/-- `(pflag & flag) != 0` -/
def hasFlag (pflag : Int32) (flag : Flag) : Bool := pflag &&& flag.value != 0

/-- `str.erase(std::remove(str.begin(), str.end(), '\n'), str.end())` -/
def removeNewlines (s : Bytes) : Bytes := s.filter (· != 10)

namespace XMLParser

variable (lib : LibXml)

/-- The document that is read. -/
def readDocument (p : XMLParser) (document : Bytes) : Option lib.Doc :=
  match p.mode with
  | .xml => lib.xmlReadMemory document (toInt document.length)
  | .html => lib.htmlReadMemory document (toInt document.length)

/-- The context with the namespaces, which are registered for XML only. -/
def registerAll (p : XMLParser) (context : lib.Context) : lib.Context :=
  match p.mode with
  | .xml =>
    p.customXmlNs.foldl (fun context ns => lib.xmlXPathRegisterNs context (cStr ns.pre)
      (cStr ns.uri)) context
  | .html => context

variable {lib}

/-- `nres` for a node: a C string, or a null pointer. -/
def nodeResult (doc : lib.Doc) (pflag : Int32) (node : lib.Node) : Except Fault (Option Bytes) :=
  if hasFlag pflag .simple then do
    let children ← orFault .undefinedBehaviour (lib.xmlChildrenNode node)
    return lib.xmlNodeListGetString doc children
  else if hasFlag pflag .withoutTags then
    .ok (some (lib.xmlXPathCastNodeToString node))
  else
    -- `assert(false)`
    .error .undefinedBehaviour

/-- The string of a node. -/
def nodeString (doc : lib.Doc) (pflag : Int32) (node : lib.Node) : Except Fault Bytes := do
  let nres ← orFault .undefinedBehaviour (← nodeResult doc pflag node)
  let str := cStr nres
  return if hasFlag pflag .stripNewline then removeNewlines str else str

/-- The loop over the nodes. -/
def pushStrings (doc : lib.Doc) (pflag : Int32) :
    List lib.Node → List Bytes → Except Fault (List Bytes)
  | [], res => .ok res
  | node :: nodes, res => do
    let str ← nodeString doc pflag node
    pushStrings doc pflag nodes (res ++ [str])

variable (lib) in
/-- `XMLParser::parse`: what it returns, and `res` after it, whatever it was before. -/
def parse (p : XMLParser) (document xpath : Bytes) (pflag : Int32) (_res : List Bytes) :
    Except Fault (Bool × List Bytes) :=
  match p.readDocument lib document with
  | none => .ok (false, [])
  | some doc =>
    match lib.xmlXPathNewContext doc with
    | none => .ok (false, [])
    | some context =>
      match lib.xmlXPathEvalExpression (cStr xpath) (p.registerAll lib context) with
      | none => .ok (false, [])
      | some nodesetval => do
        let res ← pushStrings doc pflag (nodesetval.getD []) []
        return (true, res)

/-! ## One string per node -/

/-- The document can be parsed, and the expression selects the nodes. -/
def Selects (p : XMLParser) (document xpath : Bytes) (doc : lib.Doc) (nodes : List lib.Node) :
    Prop :=
  p.readDocument lib document = some doc ∧ ∃ context nodesetval,
    lib.xmlXPathNewContext doc = some context ∧
      lib.xmlXPathEvalExpression (cStr xpath) (p.registerAll lib context) = some nodesetval ∧
        nodesetval.getD [] = nodes

/-- What a node has for its string: nothing is the empty string. -/
def content (doc : lib.Doc) (pflag : Int32) (node : lib.Node) : Bytes :=
  if hasFlag pflag .simple then
    cStr (((lib.xmlChildrenNode node).bind (lib.xmlNodeListGetString doc)).getD [])
  else cStr (lib.xmlXPathCastNodeToString node)

/-- One string for each selected node, in their order: its content, without newlines if that is
requested. -/
def OnePerNode (lib : LibXml) (p : XMLParser) (document xpath : Bytes) (pflag : Int32)
    (res : List Bytes) : Prop :=
  ∀ (doc : lib.Doc) nodes, p.Selects document xpath doc nodes →
    hasFlag pflag .simple ∨ hasFlag pflag .withoutTags →
      ∃ res', p.parse lib document xpath pflag res = .ok (true, res') ∧
        List.Forall₂ (fun node str =>
          str = if hasFlag pflag .stripNewline then removeNewlines (content doc pflag node)
            else content doc pflag node) nodes res'

/-- The node has children for which there is a string. -/
def HasText (doc : lib.Doc) (node : lib.Node) : Prop :=
  ∃ children str, lib.xmlChildrenNode node = some children ∧
    lib.xmlNodeListGetString doc children = some str

/-- With `FLAG_XML_SIMPLE`, every selected node has text. -/
def AllHaveText (lib : LibXml) (p : XMLParser) (document xpath : Bytes) (pflag : Int32) : Prop :=
  ∀ (doc : lib.Doc) nodes, p.Selects document xpath doc nodes → hasFlag pflag .simple →
    ∀ node ∈ nodes, HasText doc node

section Runs

variable {p : XMLParser} {document xpath : Bytes} {pflag : Int32} {doc : lib.Doc}
  {nodes : List lib.Node}

/-- The loop appends the string of every node, or ends at one that has none. -/
theorem pushStrings_eq_ok {res res' : List Bytes} :
    pushStrings doc pflag nodes res = .ok res' ↔
      ∃ strs, res' = res ++ strs ∧
        List.Forall₂ (fun node str => nodeString doc pflag node = .ok str) nodes strs := by
  induction nodes generalizing res with
  | nil =>
    rw [pushStrings]
    constructor
    · intro h
      obtain rfl := Except.ok.inj h
      exact ⟨[], (List.append_nil res).symm, .nil⟩
    · rintro ⟨strs, rfl, hstrs⟩
      cases hstrs
      rw [List.append_nil]
  | cons node nodes ih =>
    rw [pushStrings, bind_eq_ok]
    constructor
    · rintro ⟨str, hstr, h⟩
      obtain ⟨strs, rfl, hstrs⟩ := ih.mp h
      exact ⟨str :: strs, by rw [List.append_assoc, List.singleton_append], .cons hstr hstrs⟩
    · rintro ⟨strs, rfl, hstrs⟩
      cases hstrs with
      | cons hstr hstrs =>
        refine ⟨_, hstr, ih.mpr ⟨_, ?_, hstrs⟩⟩
        rw [List.append_assoc, List.singleton_append]

/-- **Every exit of `parse`**, once the nodes are selected. -/
theorem parse_nodes (h : p.Selects document xpath doc nodes) (res : List Bytes) :
    p.parse lib document xpath pflag res =
      (do
        let res ← pushStrings doc pflag nodes []
        return (true, res)) := by
  obtain ⟨hdoc, context, nodesetval, hcontext, heval, rfl⟩ := h
  simp only [parse, hdoc, hcontext, heval]

/-- The string of a node is its content, if it has one. -/
theorem nodeString_eq_ok (hflags : hasFlag pflag .simple ∨ hasFlag pflag .withoutTags)
    {node : lib.Node} {str : Bytes} :
    nodeString doc pflag node = .ok str ↔
      (hasFlag pflag .simple → HasText doc node) ∧
      str = if hasFlag pflag .stripNewline then removeNewlines (content doc pflag node)
        else content doc pflag node := by
  rw [nodeString, bind_eq_ok]
  simp only [bind_eq_ok, orFault_eq_ok]
  by_cases hsimple : hasFlag pflag .simple = true
  · simp only [nodeResult, content, hsimple, if_true]
    constructor
    · rintro ⟨_, hresult, nres, rfl, hstr⟩
      obtain ⟨children, hchildren, hresult⟩ := bind_eq_ok.mp hresult
      rw [orFault_eq_ok] at hchildren
      have hnres := Except.ok.inj hresult
      refine ⟨fun _ => ⟨children, nres, hchildren, hnres⟩, ?_⟩
      rw [hchildren, Option.bind_some, hnres]
      exact (Except.ok.inj hstr).symm
    · rintro ⟨htext, rfl⟩
      obtain ⟨children, nres, hchildren, hnres⟩ := htext trivial
      refine ⟨some nres, ?_, nres, rfl, ?_⟩
      · rw [hchildren]
        exact congrArg Except.ok hnres
      · rw [hchildren, Option.bind_some, hnres]
        rfl
  · have hwithout := hflags.resolve_left hsimple
    simp only [nodeResult, content, hsimple, hwithout]
    constructor
    · rintro ⟨_, hresult, nres, rfl, hstr⟩
      obtain rfl := Option.some.inj (Except.ok.inj hresult)
      exact ⟨nofun, (Except.ok.inj hstr).symm⟩
    · rintro ⟨-, rfl⟩
      exact ⟨_, rfl, _, rfl, rfl⟩

/-- The strings of the nodes are their contents, if each has one. -/
theorem pushStrings_content (hflags : hasFlag pflag .simple ∨ hasFlag pflag .withoutTags)
    {res' : List Bytes} :
    pushStrings doc pflag nodes [] = .ok res' ↔
      (∀ node ∈ nodes, hasFlag pflag .simple → HasText doc node) ∧
        List.Forall₂ (fun node str =>
          str = if hasFlag pflag .stripNewline then removeNewlines (content doc pflag node)
            else content doc pflag node) nodes res' := by
  rw [pushStrings_eq_ok, ← List.forall₂_and_left]
  simp only [List.nil_append, exists_eq_left', nodeString_eq_ok hflags]

end Runs

/-- **When there is one string per node**: exactly if `FLAG_XML_SIMPLE` is not set, or every
selected node has children for which `xmlNodeListGetString` has a string. -/
theorem onePerNode_iff (lib : LibXml) (p : XMLParser) (document xpath : Bytes) (pflag : Int32)
    (res : List Bytes) :
    OnePerNode lib p document xpath pflag res ↔ AllHaveText lib p document xpath pflag := by
  constructor
  · intro h doc nodes hselects hsimple node hnode
    obtain ⟨res', hparse, -⟩ := h doc nodes hselects (.inl hsimple)
    rw [parse_nodes hselects] at hparse
    obtain ⟨strs, hpush, -⟩ := bind_eq_ok.mp hparse
    exact ((pushStrings_content (.inl hsimple)).mp hpush).1 node hnode hsimple
  · intro h doc nodes hselects hflags
    have hpush := (pushStrings_content hflags).mpr
      ⟨fun node hnode hsimple => h doc nodes hselects hsimple node hnode,
        List.forall₂_map_right_iff.mpr (List.forall₂_same.mpr fun _ _ => rfl)⟩
    refine ⟨_, ?_, ((pushStrings_content hflags).mp hpush).2⟩
    rw [parse_nodes hselects, hpush]
    rfl

/-- A selected node without children breaks it. -/
theorem not_onePerNode_of_childless {lib : LibXml} {p : XMLParser} {document xpath : Bytes}
    {pflag : Int32} {res : List Bytes} {doc : lib.Doc} {nodes : List lib.Node} {node : lib.Node}
    (hempty : lib.xmlNodeListGetString doc [] = none)
    (hselects : p.Selects document xpath doc nodes) (hsimple : hasFlag pflag .simple)
    (hnode : node ∈ nodes) (hchildren : lib.xmlChildrenNode node = some []) :
    ¬OnePerNode lib p document xpath pflag res := by
  intro h
  obtain ⟨res', hparse, -⟩ := h doc nodes hselects (.inl hsimple)
  rw [parse_nodes hselects] at hparse
  obtain ⟨strs, hpush, -⟩ := bind_eq_ok.mp hparse
  obtain ⟨children, str, hchildren', hstr⟩ :=
    ((pushStrings_content (.inl hsimple)).mp hpush).1 node hnode hsimple
  obtain rfl := Option.some.inj (hchildren.symm.trans hchildren')
  cases hempty.symm.trans hstr

/-- A libxml2 that knows one document, `<a/>`, and one expression, `/a`. -/
def oneElement : LibXml where
  Doc := Unit
  Context := Unit
  Node := Unit
  xmlReadMemory document _ := if document = ascii "<a/>" then some () else none
  htmlReadMemory _ _ := none
  xmlXPathNewContext _ := some ()
  xmlXPathRegisterNs context _ _ := context
  xmlXPathEvalExpression xpath _ := if xpath = ascii "/a" then some (some [()]) else none
  xmlChildrenNode _ := some []
  xmlNodeListGetString _ children := if children.isEmpty then none else some []
  xmlXPathCastNodeToString _ := []

/-- The element `<a/>` has no string with `FLAG_XML_SIMPLE`. -/
theorem not_onePerNode_empty : ¬OnePerNode oneElement {} (ascii "<a/>") (ascii "/a") 0x01 [] :=
  not_onePerNode_of_childless rfl ⟨rfl, (), _, rfl, rfl, rfl⟩ rfl List.mem_cons_self rfl

end XMLParser

end WinterWind.Utils
