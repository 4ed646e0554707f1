import UhdHost.Rfnoc.MgmtPayload
import UhdHost.Rfnoc.TopoRoutes

/-!
# The transactions of the management portal

How `mgmt_portal_impl` puts together what it sends while it explores the topology, and how it reads
what comes back: `_traverse_to_node`, `_push_node_init_hop`, `_pop_node_discovery_hop`, and what
`_discover_topology` makes of a node that has identified itself.

## What is left out

A node type is four bits.  A number that names no type is read as `INVALID`; the code keeps the
number, which nothing looks at before it throws.  The route of `_traverse_to_node` is searched with
`fuel`, as in `TopoGraph.getRoute`.
-/

namespace UhdHost
namespace Rfnoc

open Chdr

/-! ## Operations -/

namespace Chdr

/-- `op_code_t` -/
inductive MgmtOpCode where
  | nop
  | advertise
  | selDest
  | return
  | infoReq
  | infoResp
  | cfgWrReq
  | cfgRdReq
  | cfgRdResp
  deriving DecidableEq, Repr

/-- The values of the enumeration. -/
def MgmtOpCode.value : MgmtOpCode → BitVec 8
  | .nop => 0
  | .advertise => 1
  | .selDest => 2
  | .return => 3
  | .infoReq => 4
  | .infoResp => 5
  | .cfgWrReq => 6
  | .cfgRdReq => 7
  | .cfgRdResp => 8

/-- An operation with a code of the enumeration. -/
def MgmtOp.ofCode (opCode : MgmtOpCode) (opPayload : BitVec 64 := 0) : MgmtOp :=
  ⟨opCode.value, opPayload, 0⟩

/-- `sel_dest_payload` -/
def selDestPayload (dest : BitVec 16) : BitVec 64 := dest.setWidth 64

/-- `cfg_payload` -/
def cfgPayload (addr : BitVec 16) (data : BitVec 32) : BitVec 64 :=
  (data.setWidth 64 <<< 16) ||| addr.setWidth 64

/-- `add_op` -/
def MgmtHop.addOp (hop : MgmtHop) (op : MgmtOp) : MgmtHop := ⟨hop.ops ++ [op]⟩

namespace MgmtPayload

/-- `add_hop` -/
def addHop (p : MgmtPayload) (hop : MgmtHop) : MgmtPayload := { p with hops := p.hops ++ [hop] }

/-- `set_header` -/
def setHeader (p : MgmtPayload) (srcEpid protover : BitVec 16) (chdrW : ChdrW) : MgmtPayload :=
  { p with
    srcEpid := srcEpid
    protover := protover
    chdrW := chdrW.code
    paddingSize := paddingOf chdrW.code
    padding_eq := rfl }

end MgmtPayload
end Chdr

/-! ## Nodes that identify themselves -/

/-- `static_cast<topo_node_t::node_type>` -/
def TopoNodeType.ofValue (value : ℕ) : TopoNodeType :=
  if value = 1 then .xbar else if value = 2 then .strmEp else if value = 3 then .xport else .invalid

/-- The node that a `node_info_payload` is about. -/
def TopoNode.ofInfoPayload (payload : BitVec 64) : TopoNode where
  deviceId := ⟨payload.setWidth 16⟩
  type := TopoNodeType.ofValue ((payload >>> 16) &&& 0xF).toNat
  inst := ⟨((payload >>> 20) &&& 0x3FF).setWidth 16⟩
  extendedInfo := ⟨((payload >>> 30) &&& 0x3FFFF).setWidth 32⟩

/-- The two operations of a response to an information request. -/
def readInfoOps : List MgmtOp → Except UhdError TopoNode
  | nopResp :: infoResp :: _ =>
    if nopResp.opCode ≠ MgmtOpCode.nop.value ∨ infoResp.opCode ≠ MgmtOpCode.infoResp.value then
      .error (.opFailed "Management operation failed. Incorrect format (operations).")
    else .ok (TopoNode.ofInfoPayload infoResp.opPayload)
  | _ => .error (.opFailed "Management operation failed. Incorrect number of operations.")

/-- `_pop_node_discovery_hop` -/
def popNodeDiscoveryHop (transaction : MgmtPayload) : Except UhdError TopoNode :=
  match transaction.hops with
  | [rhop] => readInfoOps rhop.ops
  | _ => .error (.opFailed "Management operation failed. Incorrect format (hops).")

/-- The port through which a node was entered: a crossbar says so in the place of its instance. -/
def entryPort (node : TopoNode) : ℤ := if node.type = .xbar then node.inst.toNat else anyPort

/-- A node as it goes into the graph: there is one crossbar in a device. -/
def countInstance (node : TopoNode) : TopoNode :=
  if node.type = .xbar then { node with inst := 0 } else node

/-- `topo_edge_t`, from the nodes and the ports that it connects -/
def TopoEdge.between (src dst : TopoNode) (srcPort dstPort : ℤ) : TopoEdge where
  srcPort := srcPort
  dstPort := dstPort
  type :=
    if src.isLocalSep = false ∧ src.deviceId = dst.deviceId then .onChip
    else if src.isLocalSep ∨ dst.isLocalSep then .host
    else if src.type = .xbar ∧ dst.type = .xbar ∧ src.deviceId ≠ dst.deviceId then .offChip
    else if src.type = .xport ∧ dst.type = .xport ∧ src.deviceId ≠ dst.deviceId then .ethernet
    else .invalid

/-! ## Requests -/

/-- `xport_cfg_fn_t`, by the subtype it is registered for -/
abbrev XportCfgFns := BitVec 8 → Option (UInt16 → UInt16 → BitVec 8 → MgmtHop → MgmtHop)

/-- The operations that lead on from a crossbar, and program the way back to it. -/
def crossbarHop (myEpid : UInt16) (entry exit : ℤ) : MgmtHop :=
  ⟨[.ofCode .cfgWrReq (cfgPayload myEpid.toBitVec (BitVec.ofInt 32 entry)),
    .ofCode .selDest (selDestPayload (BitVec.ofInt 16 exit))]⟩

/-- The loop of `_traverse_to_node`, with the edge of the hop before. -/
def addHops (myEpid : UInt16) :
    List RouteElement → TopoEdge → MgmtPayload → Except UhdError MgmtPayload
  | [], _, transaction => .ok transaction
  | hop :: route, lastEdge, transaction =>
    match hop.node.type with
    -- goes on with the next hop at once, so the edge is not remembered
    | .strmEp => addHops myEpid route lastEdge transaction
    | .xbar =>
      if hop.edge.srcPort < 0 then .error (.assertionError "hop.edge.src_port >= 0")
      else if lastEdge.dstPort < 0 then .error (.assertionError "last_edge.dst_port >= 0")
      else
        addHops myEpid route hop.edge
          (transaction.addHop (crossbarHop myEpid lastEdge.dstPort hop.edge.srcPort))
    | _ => addHops myEpid route hop.edge (transaction.addHop ⟨[.ofCode .nop]⟩)

/-- `route.back().edge.src_port = last_port_override` -/
def overrideLastPort (route : List RouteElement) (lastPortOverride : ℤ) : List RouteElement :=
  route.modify (route.length - 1) fun back =>
    { back with edge := { back.edge with srcPort := lastPortOverride } }

/-- `_traverse_to_node`, to a node that is not the target: the transaction, and the last edge. -/
def traverseToNode (search : GraphSearches) (fuel : ℕ) (tgraph : TopoGraph) (myNodeId : TopoNode)
    (transaction : MgmtPayload) (dstNode : TopoNode) (myEpid : UInt16) (lastPortOverride : ℤ) :
    Option (Except UhdError (MgmtPayload × TopoEdge)) :=
  if dstNode.equal myNodeId then some (.ok (transaction, {}))
  else
    match tgraph.getRoute search myNodeId dstNode fuel with
    | none => none
    | some (.error e) => some (.error e)
    | some (.ok route) =>
      let route := overrideLastPort route lastPortOverride
      match addHops myEpid route {} transaction with
      | .error e => some (.error e)
      | .ok transaction =>
        some (.ok (transaction, (route.getLast?.map RouteElement.edge).getD {}))

/-- The operations of `_push_node_init_hop` that depend on the type of the node. -/
def nodeInitHop (initCfgFns : XportCfgFns) (node : TopoNode) (myEpid : UInt16) (dstPort : ℤ) :
    Except UhdError MgmtHop :=
  match node.type with
  | .xbar => .ok ⟨[.ofCode .cfgWrReq (cfgPayload myEpid.toBitVec (BitVec.ofInt 32 dstPort))]⟩
  | .strmEp => .ok ⟨[.ofCode .nop]⟩
  | .xport =>
    let nodeSubtype := node.extendedInfo.toBitVec.setWidth 8
    match initCfgFns nodeSubtype with
    | some initCfgFn => .ok (initCfgFn node.deviceId node.inst nodeSubtype {})
    | none => .ok ⟨[.ofCode .advertise]⟩
  | _ => .error (.systemError "invalid code path")

/-- `_push_node_init_hop` -/
def pushNodeInitHop (initCfgFns : XportCfgFns) (transaction : MgmtPayload) (node : TopoNode)
    (myEpid : UInt16) (dstPort : ℤ) : Except UhdError MgmtPayload :=
  match nodeInitHop initCfgFns node myEpid dstPort with
  | .error e => .error e
  | .ok initHop => .ok (transaction.addHop (initHop.addOp (.ofCode .return)))

/-- The hop that asks a node to identify itself. -/
def discHop : MgmtHop := ⟨[.ofCode .infoReq, .ofCode .return]⟩

/-! ## Where to go on -/

/-- `ALLOW_DAISY_CHAINING` -/
def allowDaisyChaining : Bool := true

/-- The paths that go on from a node that was entered through a port. -/
def pathsFrom (newNode : TopoNode) (dstPort : ℤ) : Except UhdError (List (TopoNode × ℤ)) :=
  match newNode.type with
  | .xbar =>
    let nports := newNode.extendedInfo.toNat &&& 0xFF
    let nportsXport := (newNode.extendedInfo.toNat >>> 8) &&& 0xFF
    let startPort := if allowDaisyChaining then 0 else nportsXport
    .ok ((((List.range nports).drop startPort).filter fun i => (i : ℤ) ≠ dstPort).map
      fun i => (newNode, (i : ℤ)))
  | .strmEp => .ok []
  | .xport => .ok [(newNode, -1)]
  | _ => .error (.systemError "invalid code path")

end Rfnoc
end UhdHost
