-- SUMMARY: Call sites: the names that a construct calls, with their lines.
import SourceChunks.Symbol.Name

/-!
# Call sites

The outgoing calls of a construct. A call counts if the thing called leads to a name; calls of one
name on one line count once.
-/

namespace SourceChunks

/-- A call of a name on a line. -/
structure CallSite where
  symbol : String
  /-- The line of the called name, counted from one. -/
  line : Nat
  deriving Repr, DecidableEq, Inhabited

namespace Node

/-- The function, type or macro that a call names. -/
def callee? (call : Node) : Option Node :=
  match call.kind with
  | "macro_invocation" => call.field? "macro"
  | "new_expression" => call.field? "constructor"
  | "object_creation_expression" =>
    call.field? "type" <|> call.namedChildren.find? (·.isOneOf ["name", "qualified_name"])
  | "method_invocation" | "member_call_expression" | "nullsafe_member_call_expression"
  | "scoped_call_expression" => call.field? "name"
  | _ => call.field? "function"

def callSite? (source : String) (call : Node) : Option CallSite :=
  (call.callee?.bind nameNode?).bind fun name =>
    let symbol := Text.trim (name.text source)
    if symbol.isEmpty then none else some { symbol, line := name.startLine source }

end Node

namespace CallSite

/-- The call sites of a construct: the calls of the given kinds that named nodes lead to, in source
order, each site once. -/
def ofNode (kinds : List String) (source : String) (n : Node) : List CallSite :=
  ((n.namedPlaces (fun _ => true) none).filterMap fun place =>
    if place.node.isOneOf kinds then place.node.callSite? source else none).eraseDups

end CallSite

end SourceChunks
