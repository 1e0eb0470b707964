import Nanotins.Dpar.Match

/-!
Contract: compiling a rules text, as `compile_rules` in `dpar.hpp` does.

Owns: the tokens of a line, operators, operands, regions and labels, the
predicate loop, the action of a rule, and the line loop with all its errors.

Does not own: what a compiled rule guarantees.
-/

namespace Nanotins.Dpar

open Nanotins.Library

/-! ### Tokens -/

def isBlank (c : Char) : Bool := c == ' ' || c == '\t' || c == '\r'

def tokenize (line : Text) : List Text := tokenizeBy isBlank line

def parseOp (s : Text) : Option CmpOp :=
  if s = "==".toList then some .eq
  else if s = "<".toList then some .lt
  else if s = ">".toList then some .gt
  else if s = "<=".toList then some .le
  else if s = ">=".toList then some .ge
  else none

/-- Whether the token is a numeral, and the operand, which is stored either way. -/
def parseU64 (s : Text) : Bool × Nat :=
  if s.isEmpty then (false, 0)
  else ((strtoull (cStr s)).2.isEmpty, (strtoull (cStr s)).1)

/-- The region and the name of its anchor. -/
def parseRegion (s : Text) : Option (RegionKind × String) :=
  if s = "eth_payload".toList then some (.ethPayload, "eth")
  else if s = "vlan_payload".toList then some (.vlanPayload, "vlan")
  else if s = "udp_payload".toList then some (.udpPayload, "udp")
  else if s = "tcp_payload".toList then some (.tcpPayload, "tcp")
  else if s = "someip_payload".toList then some (.someipPayload, "someip")
  else none

def quote : Char := Char.ofNat 34

def stripQuotes (s : Text) : Text :=
  if 2 ≤ s.length ∧ s.head? = some quote ∧ s.getLast? = some quote then s.tail.dropLast else s

/-! ### One rule -/

/-- A rule under construction, and the errors of its line. -/
structure LineState where
  rule : Rule
  ruleOk : Bool
  errors : List Text
deriving DecidableEq, Repr

section Line

variable (catalog : List CatalogEntry) (parserNames : List Text) (lineNo : Nat)

def LineState.err (st : LineState) (m : Text) : LineState :=
  { st with
    ruleOk := false
    errors := st.errors ++ ["rule line ".toList ++ Nat.toDigits 10 lineNo ++ ": ".toList ++ m] }

/-- Report an error unless the condition holds. -/
def LineState.require (st : LineState) (cond : Bool) (m : Text) : LineState :=
  if cond then st else st.err lineNo m

/-- The node and the field that `<node>.<field>` names, split at the first dot. -/
def splitDot (lhs : Text) : Option (Text × Text) :=
  if '.' ∈ lhs then some (lhs.takeWhile (· ≠ '.'), (lhs.dropWhile (· ≠ '.')).tail) else none

/-- The checks of a predicate whose field is in the catalog. -/
def addPredicate (lhs vals : Text) (ce : CatalogEntry) (op : CmpOp) (operand : Nat)
    (st : LineState) : LineState :=
  let bits := ce.ref.bits
  let st := st.require lineNo (!(decide (bits < 64) && decide (2 ^ bits ≤ operand)))
    ("operand ".toList ++ vals ++ " overflows ".toList ++ lhs ++ " (".toList ++
      Nat.toDigits 10 bits ++ " bits)".toList)
  if kMaxPredicates ≤ st.rule.preds.length then
    st.err lineNo
      ("too many predicates (max ".toList ++ Nat.toDigits 10 kMaxPredicates ++ ")".toList)
  else
    { st with rule := { st.rule with preds := st.rule.preds ++ [⟨ce.ref, op, operand⟩] } }

/-- The checks of a predicate's three tokens. -/
def checkTokens (lhs ops vals : Text) (st : LineState) : LineState :=
  let st := st.require lineNo (splitDot lhs).isSome
    ("predicate '".toList ++ lhs ++ "' must be <node>.<field>".toList)
  let st := st.require lineNo (parseOp ops).isSome
    ("unknown comparator '".toList ++ ops ++ "' (use == < > <= >=)".toList)
  st.require lineNo (parseU64 vals).1
    ("operand '".toList ++ vals ++ "' is not an integer".toList)

/-- One round of the predicate loop. -/
def compilePredicate (lhs ops vals : Text) (st : LineState) : LineState :=
  let st := checkTokens lineNo lhs ops vals st
  match splitDot lhs with
  | none => st
  | some (node, field) =>
      match findField catalog node field with
      | none => st.err lineNo ("unknown field '".toList ++ lhs ++ "'".toList)
      | some ce =>
          addPredicate lineNo lhs vals ce ((parseOp ops).getD .eq) (parseU64 vals).2 st

/-- The predicate loop; it gives the tokens it has left. -/
def predicateLoop : List Text → LineState → List Text × LineState
  | lhs :: ops :: vals :: rest, st =>
      let st := compilePredicate catalog lineNo lhs ops vals st
      match rest with
      | [] => ([], st)
      | next :: rest => if next = "&&".toList then predicateLoop rest st else (next :: rest, st)
  | tok, st => (tok, st.err lineNo "expected '<node>.<field> <op> <value>'".toList)

/-- The names of the palette, separated by commas. -/
def availableNames : Text :=
  parserNames.foldl
    (fun avail name => avail ++ ((if avail.isEmpty then [] else ", ".toList) ++ name)) []

def compileLabel (tok : List Text) (st : LineState) : LineState :=
  match tok with
  | [] => st
  | label :: _ =>
      { st with
        rule := { st.rule with name := (cStr (stripQuotes label)).take (kRuleNameLen - 1) } }

/-- The region and the optional label. -/
def compileRegion (tok : List Text) (st : LineState) : LineState :=
  match tok with
  | [] => st.err lineNo "expected a region after the parser".toList
  | region :: rest =>
      compileLabel rest <|
        match parseRegion region with
        | none =>
            st.err lineNo ("unknown region '".toList ++ region ++
              "' (udp_payload | tcp_payload | someip_payload)".toList)
        | some (rk, anchor) =>
            match anchorNodeId catalog anchor with
            | none =>
                st.err lineNo
                  ("region anchor node '".toList ++ anchor.toList ++ "' is not in the graph".toList)
            | some aid => { st with rule := { st.rule with region := ⟨rk, aid % 2 ^ 16⟩ } }

/-- The parser, the region and the label. -/
def compileParser (tok : List Text) (st : LineState) : LineState :=
  match tok with
  | [] =>
      compileRegion catalog lineNo [] (st.err lineNo "expected a parser name after '=>'".toList)
  | parser :: rest =>
      let kind := parserNames.findIdx? (· == parser)
      let st := st.require lineNo kind.isSome
        ("unknown parser '".toList ++ parser ++ "' (available: ".toList ++
          availableNames parserNames ++ ")".toList)
      let st := { st with rule := { st.rule with parserKind := kind.getD 0 % 2 ^ 16 } }
      compileRegion catalog lineNo rest st

def compileAction (tok : List Text) (st : LineState) : LineState :=
  match tok with
  | [] => st.err lineNo "expected '=>' after predicates".toList
  | arrow :: rest =>
      if arrow = "=>".toList then compileParser catalog parserNames lineNo rest st
      else st.err lineNo "expected '=>' after predicates".toList

/-- A line that is neither blank nor a comment. -/
def compileLine (ordinal : Nat) (tok : List Text) : LineState :=
  let start : LineState := ⟨{ ruleId := ordinal, priority := ordinal % 2 ^ 16 }, true, []⟩
  let predicates := predicateLoop catalog lineNo tok start
  compileAction catalog parserNames lineNo predicates.1 predicates.2

end Line

/-! ### The text -/

/-- The line loop's variables; the two counters are `uint32_t`. -/
structure CompileState where
  lineNo : Nat
  ordinal : Nat
  rules : List Rule
  errors : List Text
deriving DecidableEq, Repr

/-- The line has no token, or its first starts with `#`. -/
def isSkipped (tok : List Text) : Bool :=
  match tok with
  | [] => true
  | first :: _ => first.head? == some '#'

def compileStep (catalog : List CatalogEntry) (parserNames : List Text) (state : CompileState)
    (line : Text) : CompileState :=
  let lineNo := (state.lineNo + 1) % 2 ^ 32
  let tok := tokenize line
  if isSkipped tok then
    { state with lineNo := lineNo }
  else
    let st := compileLine catalog parserNames lineNo state.ordinal tok
    { lineNo := lineNo
      ordinal := (state.ordinal + 1) % 2 ^ 32
      rules := if st.ruleOk then state.rules ++ [st.rule] else state.rules
      errors := state.errors ++ st.errors }

structure CompileResult where
  ok : Bool
  rules : List Rule
  errors : List Text
deriving DecidableEq, Repr

/-- Compile every line; on any error no rule is returned. -/
def compileRules (text : Text) (catalog : List CatalogEntry) (parserNames : List Text) :
    CompileResult :=
  let done := (text.splitOn '\n').foldl (compileStep catalog parserNames) ⟨0, 0, [], []⟩
  if done.errors.isEmpty then ⟨true, done.rules, []⟩ else ⟨false, [], done.errors⟩

end Nanotins.Dpar
