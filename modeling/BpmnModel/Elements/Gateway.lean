import BpmnModel.Error.Structure
import BpmnModel.Model.Flow
import BpmnModel.Xml.Element

/-!
# Gateways

A gateway lists the edges that enter and leave it and has to fork or join.  Only a gateway
that chooses one edge has a fallback edge, whose target is found later.

## Main definitions

* `Gateway.read type node` — the gateway of an element.
* `Gateway.stub? g` — its fallback edge, without the target.
-/

namespace BpmnModel.Gateway

/-- The fallback edge that an element declares for a gateway of the given type. -/
def fallbackOf (type : GatewayType) (node : Element) : Option String :=
  match type with
  | .xor => (node.attr? "default").filter fun d => d != ""
  | .or => none
  | .and => none

/-- The gateway of an element. -/
def read (type : GatewayType) (node : Element) : Except StructureError Gateway :=
  let incoming := node.childTexts "incoming"
  let outgoing := node.childTexts "outgoing"
  if incoming.isEmpty || outgoing.isEmpty then .error (.gatewayMissingEdges node.id)
  else if incoming.length = 1 ∧ outgoing.length = 1 then .error (.degenerateGateway node.id)
  else .ok {
    id := node.id
    gatewayType := type
    incoming
    outgoing
    fallback := fallbackOf type node }

/-- The fallback edge of a gateway, its target still unknown. -/
def stub? (g : Gateway) : Option DefaultTransition :=
  g.fallback.map fun t => { gateway := g.id, transition := t, activity := "" }

end BpmnModel.Gateway
