import UhdHost.Library.Exchange
import UhdHost.Rfnoc.MgmtTransactions

/-!
# Exploring the topology by management transactions

The constructor of `mgmt_portal_impl` explores what can be reached from its transport
(`_discover_topology`), one path after the other.  For each path it sends two transactions by
`_send_recv_mgmt_transaction`: the first asks the node at the end of the path to identify itself,
the second initializes a node that was not known.

A transaction sends its request and takes the management packet that comes next.  The number in the
header of the request is not compared with anything.  If nothing comes in time, `uhd::io_error` is
thrown; while a node is asked to identify itself, this is taken to say that there is no node, and
the exploration goes on.

## The steps

* `next` begins with the next path, up to where the response is waited for.
* `arrive` and `lose` are what the network does with a response.  Whatever a response says, and
  whether it can be read, is part of the step; so the topology is arbitrary.
* `receive` takes the packet that came first, and goes on up to where the portal waits again.
* `timeout` gives a transaction up.  It is possible only if no packet is there.

`sendBuff` says whether there is a buffer to send from.  The numbers of the requests, and the
records of what was put into the graph, are not part of the portal: they are there to say which
response was taken for which transaction.

`paired_iff` says that responses stay paired with their transactions exactly as long as no
transaction takes a packet while the response to one that has timed out is first in the queue.
-/

namespace UhdHost
namespace Rfnoc

open Chdr
open Transition

/-- The end of a path: a node, and the port through which to leave it. -/
abbrev PendingPath := TopoNode × ℤ

/-- What a transaction is for. -/
inductive MgmtPurpose where
  /-- To ask the node at the end of a path to identify itself. -/
  | identify (path : PendingPath)
  /-- To initialize the node at the end of a path. -/
  | initNode (path : PendingPath)
  deriving DecidableEq

/-- A request on its way: a header and a payload. -/
structure MgmtRequest where
  purpose : MgmtPurpose
  header : ChdrHeader
  payload : MgmtPayload

/-- What `fill_payload` makes of a response. -/
abbrev MgmtResponse := Except UhdError MgmtPayload

/-- What does not change while a portal explores. -/
structure MgmtPortal where
  protover : BitVec 16
  chdrW : ChdrW
  /-- The device of the local endpoint. -/
  myDeviceId : UInt16
  /-- `xport.get_epid()` -/
  myEpid : UInt16
  initCfgFns : XportCfgFns := fun _ => none
  search : GraphSearches
  /-- A bound on the search for routes. -/
  fuel : ℕ

/-- `_my_node_id` -/
def MgmtPortal.myNodeId (portal : MgmtPortal) : TopoNode where
  deviceId := portal.myDeviceId
  type := .strmEp
  inst := portal.myEpid
  epid := some portal.myEpid
  isLocalSep := true

/-- Where the exploration is. -/
inductive DiscoveryPhase where
  /-- At the head of the loop. -/
  | exploring
  /-- The node at the end of a path was asked to identify itself. -/
  | awaitInfo (transaction : ℕ) (path : PendingPath) (routeXact : MgmtPayload)
  /-- A node is being initialized. -/
  | awaitInit (transaction : ℕ) (newNode : TopoNode) (dstPort : ℤ)
  | ended (result : Except UhdError Unit)

/-- The transaction that is waited for. -/
def DiscoveryPhase.waiting : DiscoveryPhase → Option ℕ
  | .exploring => none
  | .awaitInfo transaction _ _ => some transaction
  | .awaitInit transaction _ _ => some transaction
  | .ended _ => none

/-- An edge that was put into the graph, with the transaction whose response said so. -/
structure RecordedEdge where
  path : PendingPath
  newNode : TopoNode
  newEdge : TopoEdge
  answerTo : ℕ
  deriving DecidableEq

/-- The portal and the network. -/
structure MgmtDiscovery where
  tgraph : TopoGraph
  pendingPaths : List PendingPath := []
  /-- `_send_seqnum` -/
  sendSeqnum : ℕ := 0
  phase : DiscoveryPhase := .exploring
  exchange : Exchange MgmtRequest MgmtResponse := {}
  recorded : List RecordedEdge := []

namespace MgmtDiscovery

variable (portal : MgmtPortal)

/-! ## Transactions -/

/-- The header of `_send_mgmt_transaction`. -/
def sendHeader (sendSeqnum : ℕ) (payload : MgmtPayload) : ChdrHeader :=
  (((((({} : ChdrHeader).setPktType .mgmt).setNumMdata 0).setSeqNum
    (BitVec.ofNat 16 sendSeqnum)).setLength
      (BitVec.ofNat 16 (payload.getSizeBytes + portal.chdrW.bits / 8)))).setDstEpid 0

/-- `_send_mgmt_transaction`: the number of the request. -/
def sendMgmtTransaction (purpose : MgmtPurpose) (payload : MgmtPayload) (sendBuff : Bool)
    (s : MgmtDiscovery) : EStateM.Result UhdError MgmtDiscovery ℕ :=
  let header := sendHeader portal s.sendSeqnum payload
  let s := { s with sendSeqnum := s.sendSeqnum + 1 }
  if sendBuff then
    .ok s.exchange.requests.length
      { s with exchange := s.exchange.send ⟨purpose, header, payload⟩ }
  else .error (.ioError "Timed out getting send buff for management transaction") s

/-- `_send_recv_mgmt_transaction`, up to where the response is waited for. -/
def startMgmtTransaction (purpose : MgmtPurpose) (transaction : MgmtPayload) (sendBuff : Bool)
    (s : MgmtDiscovery) : EStateM.Result UhdError MgmtDiscovery ℕ :=
  let send := transaction.setHeader portal.myEpid.toBitVec portal.protover portal.chdrW
  s.sendMgmtTransaction portal purpose (send.addHop ⟨[.ofCode .nop]⟩) sendBuff

/-- What is thrown if no response comes. -/
def recvTimeout : UhdError := .ioError "Timed out getting recv buff for management transaction"

/-! ## The exploration -/

/-- What is thrown while a node is asked to identify itself: `uhd::io_error` is caught, and the path
is ignored unless a node has to be there. -/
def catchIoError (path : PendingPath) : UhdError → DiscoveryPhase
  | .ioError what => if path.2 < 0 then .ended (.error (.ioError what)) else .exploring
  | e => .ended (.error e)

/-- The part of the loop before the first response. -/
def nextPath (sendBuff : Bool) (s : MgmtDiscovery) : Option MgmtDiscovery :=
  match s.pendingPaths with
  | [] => some { s with phase := .ended (.ok ()) }
  | path :: rest =>
    let s := { s with pendingPaths := rest }
    let routeXact := ({} : MgmtPayload).setHeader portal.myEpid.toBitVec portal.protover portal.chdrW
    match traverseToNode portal.search portal.fuel s.tgraph portal.myNodeId routeXact path.1
      portal.myEpid path.2 with
    | none => none
    | some (.error e) => some { s with phase := .ended (.error e) }
    | some (.ok (routeXact, _)) =>
      match s.startMgmtTransaction portal (.identify path) (routeXact.addHop discHop) sendBuff with
      | .error e s => some { s with phase := catchIoError path e }
      | .ok transaction s => some { s with phase := .awaitInfo transaction path routeXact }

/-- The part of the loop after a node has identified itself. -/
def foundNode (path : PendingPath) (routeXact : MgmtPayload) (sendBuff : Bool) (newNode : TopoNode)
    (dstPort : ℤ) (newEdge : TopoEdge) (s : MgmtDiscovery) : MgmtDiscovery :=
  match s.tgraph.addBiedge path.1 newNode newEdge with
  | .error e tgraph => { s with tgraph := tgraph, phase := .ended (.error e) }
  | .ok false tgraph => { s with tgraph := tgraph, phase := .exploring }
  | .ok true tgraph =>
    let s := { s with tgraph := tgraph }
    match pushNodeInitHop portal.initCfgFns routeXact newNode portal.myEpid newEdge.dstPort with
    | .error e => { s with phase := .ended (.error e) }
    | .ok initReqXact =>
      match s.startMgmtTransaction portal (.initNode path) initReqXact sendBuff with
      | .error e s => { s with phase := .ended (.error e) }
      | .ok transaction s => { s with phase := .awaitInit transaction newNode dstPort }

/-- The part of the loop after the first response. -/
def afterInfo (path : PendingPath) (routeXact : MgmtPayload) (sendBuff : Bool) (answerTo : ℕ)
    (response : MgmtResponse) (s : MgmtDiscovery) : MgmtDiscovery :=
  match response with
  | .error e => { s with phase := catchIoError path e }
  | .ok discRespXact =>
    match popNodeDiscoveryHop discRespXact with
    | .error e => { s with phase := catchIoError path e }
    | .ok identity =>
      let dstPort := entryPort identity
      let newNode := countInstance identity
      let newEdge := TopoEdge.between path.1 newNode path.2 dstPort
      foundNode portal path routeXact sendBuff newNode dstPort newEdge
        { s with recorded := s.recorded ++ [⟨path, newNode, newEdge, answerTo⟩] }

/-- The part of the loop after the second response, of which the contents do not matter. -/
def afterInit (newNode : TopoNode) (dstPort : ℤ) (response : MgmtResponse) (s : MgmtDiscovery) :
    MgmtDiscovery :=
  match response with
  | .error e => { s with phase := .ended (.error e) }
  | .ok _ =>
    match pathsFrom newNode dstPort with
    | .error e => { s with phase := .ended (.error e) }
    | .ok paths => { s with pendingPaths := s.pendingPaths ++ paths, phase := .exploring }

/-- The constructor, up to the exploration. -/
def start (tgraph : TopoGraph) : Except UhdError MgmtDiscovery :=
  match tgraph.addNode portal.myNodeId with
  | .error e _ => .error e
  | .ok false _ =>
    .error (.runtimeError ("Failed to add node " ++ portal.myNodeId.toString ++
      " to the topology graph! Node already exists."))
  | .ok true tgraph => .ok { tgraph := tgraph, pendingPaths := [(portal.myNodeId, -1)] }

/-- What can happen next. -/
inductive Action where
  | next (sendBuff : Bool)
  | arrive (answerTo : ℕ) (response : MgmtResponse)
  | lose (answerTo : ℕ)
  | receive (sendBuff : Bool)
  | timeout

/-- A packet is taken by the transaction that is waited for. -/
def receive (sendBuff : Bool) (s : MgmtDiscovery) : Option MgmtDiscovery :=
  match s.phase with
  | .exploring => none
  | .ended _ => none
  | .awaitInfo transaction path routeXact =>
    (s.exchange.take transaction).map fun taken =>
      afterInfo portal path routeXact sendBuff taken.1.1 taken.1.2 { s with exchange := taken.2 }
  | .awaitInit transaction newNode dstPort =>
    (s.exchange.take transaction).map fun taken =>
      afterInit newNode dstPort taken.1.2 { s with exchange := taken.2 }

/-- The transaction that is waited for is given up. -/
def timeout (s : MgmtDiscovery) : Option MgmtDiscovery :=
  match s.phase with
  | .exploring => none
  | .ended _ => none
  | .awaitInfo transaction path _ =>
    (s.exchange.giveUp transaction).map fun exchange =>
      { s with exchange := exchange, phase := catchIoError path recvTimeout }
  | .awaitInit transaction _ _ =>
    (s.exchange.giveUp transaction).map fun exchange =>
      { s with exchange := exchange, phase := .ended (.error recvTimeout) }

/-- A step of the exploration. -/
def step (s : MgmtDiscovery) : Action → Option MgmtDiscovery
  | .next sendBuff =>
    match s.phase with
    | .exploring => s.nextPath portal sendBuff
    | _ => none
  | .arrive answerTo response =>
    (s.exchange.arrive answerTo response).map fun exchange => { s with exchange := exchange }
  | .lose answerTo => (s.exchange.lose answerTo).map fun exchange => { s with exchange := exchange }
  | .receive sendBuff => s.receive portal sendBuff
  | .timeout => s.timeout

/-! ## What a step does to the exchange -/

/-- A request with a number and a purpose was sent. -/
def Asks (s : MgmtDiscovery) (n : ℕ) (purpose : MgmtPurpose) : Prop :=
  ∃ request, s.exchange.requests[n]? = some request ∧ request.purpose = purpose

/-- How the portal goes on when it waits for nothing: it sends a request or it does not. -/
inductive Proceeds (s t : MgmtDiscovery) : Prop where
  | idle (hexchange : t.exchange = s.exchange) (hrecorded : t.recorded = s.recorded)
      (hphase : t.phase.waiting = none)
  | sent (request : MgmtRequest) (hexchange : t.exchange = s.exchange.send request)
      (hrecorded : t.recorded = s.recorded)
      (hphase : t.phase.waiting = some s.exchange.requests.length)
      (hpurpose : ∀ n path routeXact, t.phase = .awaitInfo n path routeXact →
        request.purpose = .identify path)

variable {portal}

theorem startMgmtTransaction_ok {purpose : MgmtPurpose} {transaction : MgmtPayload}
    {sendBuff : Bool} {s t : MgmtDiscovery} {n : ℕ}
    (h : s.startMgmtTransaction portal purpose transaction sendBuff = .ok n t) :
    n = s.exchange.requests.length ∧ t.recorded = s.recorded ∧
      ∃ request, request.purpose = purpose ∧ t.exchange = s.exchange.send request := by
  rw [startMgmtTransaction, sendMgmtTransaction] at h
  split_ifs at h
  obtain ⟨rfl, rfl⟩ := EStateM.Result.ok.inj h
  exact ⟨rfl, rfl, _, rfl, rfl⟩

theorem startMgmtTransaction_error {purpose : MgmtPurpose} {transaction : MgmtPayload}
    {sendBuff : Bool} {s t : MgmtDiscovery} {e : UhdError}
    (h : s.startMgmtTransaction portal purpose transaction sendBuff = .error e t) :
    t.exchange = s.exchange ∧ t.recorded = s.recorded := by
  rw [startMgmtTransaction, sendMgmtTransaction] at h
  split_ifs at h
  obtain ⟨rfl, rfl⟩ := EStateM.Result.error.inj h
  exact ⟨rfl, rfl⟩

theorem waiting_catchIoError (path : PendingPath) (e : UhdError) :
    (catchIoError path e).waiting = none := by
  rw [catchIoError.eq_def]
  split
  · split_ifs <;> rfl
  · rfl

theorem proceeds_nextPath {sendBuff : Bool} {s t : MgmtDiscovery}
    (h : s.nextPath portal sendBuff = some t) : s.Proceeds t := by
  rw [nextPath.eq_def] at h
  split at h
  · obtain rfl := Option.some_inj.mp h
    exact .idle rfl rfl rfl
  · dsimp only at h
    split at h
    · exact absurd h (Option.some_ne_none t).symm
    · obtain rfl := Option.some_inj.mp h
      exact .idle rfl rfl rfl
    · split at h
      · rename_i hstart
        obtain ⟨hexchange, hrecorded⟩ := startMgmtTransaction_error hstart
        obtain rfl := Option.some_inj.mp h
        exact .idle hexchange hrecorded (waiting_catchIoError _ _)
      · rename_i hstart
        obtain ⟨rfl, hrecorded, request, hpurpose, hexchange⟩ := startMgmtTransaction_ok hstart
        obtain rfl := Option.some_inj.mp h
        refine .sent request hexchange hrecorded rfl fun n path routeXact hphase => ?_
        obtain ⟨-, rfl, -⟩ := DiscoveryPhase.awaitInfo.inj hphase
        exact hpurpose

theorem proceeds_foundNode (path : PendingPath) (routeXact : MgmtPayload) (sendBuff : Bool)
    (newNode : TopoNode) (dstPort : ℤ) (newEdge : TopoEdge) (s : MgmtDiscovery) :
    s.Proceeds (foundNode portal path routeXact sendBuff newNode dstPort newEdge s) := by
  rw [foundNode]
  split
  · exact .idle rfl rfl rfl
  · exact .idle rfl rfl rfl
  · dsimp only
    split
    · exact .idle rfl rfl rfl
    · split
      · rename_i hstart
        obtain ⟨hexchange, hrecorded⟩ := startMgmtTransaction_error hstart
        exact .idle hexchange hrecorded rfl
      · rename_i hstart
        obtain ⟨rfl, hrecorded, request, -, hexchange⟩ := startMgmtTransaction_ok hstart
        refine .sent request hexchange hrecorded rfl fun n path routeXact hphase => ?_
        exact absurd hphase DiscoveryPhase.noConfusion

theorem proceeds_afterInfo (path : PendingPath) (routeXact : MgmtPayload) (sendBuff : Bool)
    (answerTo : ℕ) (response : MgmtResponse) (s : MgmtDiscovery) :
    ∃ u : MgmtDiscovery, u.exchange = s.exchange ∧
      (∀ r ∈ u.recorded, r ∈ s.recorded ∨ r.path = path ∧ r.answerTo = answerTo) ∧
        u.Proceeds (afterInfo portal path routeXact sendBuff answerTo response s) := by
  rw [afterInfo.eq_def]
  split
  · exact ⟨s, rfl, fun r hr => Or.inl hr, .idle rfl rfl (waiting_catchIoError _ _)⟩
  · split
    · exact ⟨s, rfl, fun r hr => Or.inl hr, .idle rfl rfl (waiting_catchIoError _ _)⟩
    · refine ⟨{ s with recorded := s.recorded ++ [_] }, rfl, ?_, proceeds_foundNode _ _ _ _ _ _ _⟩
      intro r hr
      rcases List.mem_append.mp hr with hr | hr
      · exact Or.inl hr
      · rw [List.mem_singleton.mp hr]
        exact Or.inr ⟨rfl, rfl⟩

theorem proceeds_afterInit (newNode : TopoNode) (dstPort : ℤ) (response : MgmtResponse)
    (s : MgmtDiscovery) : s.Proceeds (afterInit newNode dstPort response s) := by
  rw [afterInit.eq_def]
  split
  · exact .idle rfl rfl rfl
  · split
    · exact .idle rfl rfl rfl
    · exact .idle rfl rfl rfl

/-! ## The invariant -/

/-- **Responses are paired with their transactions**, and every edge that was recorded comes from
the response to the request that asked for it. -/
def Paired (s : MgmtDiscovery) : Prop :=
  s.exchange.Paired ∧ ∀ r ∈ s.recorded, s.Asks r.answerTo (.identify r.path)

/-- The invariant. -/
structure Inv (s : MgmtDiscovery) : Prop where
  tracks : s.exchange.Tracks s.phase.waiting
  asks : ∀ n path routeXact, s.phase = .awaitInfo n path routeXact → s.Asks n (.identify path)
  recorded : ∀ r ∈ s.recorded, s.Asks r.answerTo (.identify r.path)

theorem Inv.paired {s : MgmtDiscovery} (h : s.Inv) : s.Paired := ⟨h.tracks.paired, h.recorded⟩

theorem Asks.mono {s t : MgmtDiscovery} {n : ℕ} {purpose : MgmtPurpose} (h : s.Asks n purpose)
    (hgrows : s.exchange.requests <+: t.exchange.requests) : t.Asks n purpose := by
  obtain ⟨request, hget, hpurpose⟩ := h
  obtain ⟨rest, hrest⟩ := hgrows
  refine ⟨request, ?_, hpurpose⟩
  rw [← hrest, List.getElem?_append_left (List.getElem?_eq_some_iff.mp hget).1, hget]

theorem Proceeds.inv {s t : MgmtDiscovery} (h : s.Proceeds t) (htracks : s.exchange.Tracks none)
    (hrecorded : ∀ r ∈ s.recorded, s.Asks r.answerTo (.identify r.path)) : t.Inv := by
  cases h with
  | idle hexchange hrec hphase =>
    refine ⟨?_, ?_, ?_⟩
    · rw [hexchange, hphase]
      exact htracks
    · intro n path routeXact hawait
      rw [hawait] at hphase
      exact absurd hphase (Option.some_ne_none n)
    · rw [hrec]
      exact fun r hr => (hrecorded r hr).mono (hexchange ▸ List.prefix_rfl)
  | sent request hexchange hrec hphase hpurpose =>
    have hgrows : s.exchange.requests <+: t.exchange.requests := by
      rw [hexchange]
      exact List.prefix_append _ _
    refine ⟨?_, ?_, ?_⟩
    · rw [hexchange, hphase]
      exact Exchange.tracks_send htracks request
    · intro n path routeXact hawait
      refine ⟨request, ?_, hpurpose n path routeXact hawait⟩
      rw [hawait] at hphase
      rw [Option.some_inj.mp hphase, hexchange, Exchange.send, List.getElem?_concat_length]
    · rw [hrec]
      exact fun r hr => (hrecorded r hr).mono hgrows

theorem Proceeds.taken_eq {s t : MgmtDiscovery} (h : s.Proceeds t) :
    t.exchange.taken = s.exchange.taken := by
  cases h with
  | idle hexchange _ _ => rw [hexchange]
  | sent request hexchange _ _ _ => rw [hexchange, Exchange.send]

/-! ## The steps -/

/-- What a transaction takes is not the response to one that has timed out. -/
def TakesNoStale (s : MgmtDiscovery) : Action → Prop
  | .next _ => True
  | .arrive _ _ => True
  | .lose _ => True
  | .receive _ => ¬ s.exchange.StaleFirst
  | .timeout => True

instance (s : MgmtDiscovery) (a : Action) : Decidable (s.TakesNoStale a) := by
  cases a <;> unfold TakesNoStale Exchange.StaleFirst <;> infer_instance

theorem receive_cases {sendBuff : Bool} {s t : MgmtDiscovery}
    (h : s.receive portal sendBuff = some t) :
    ∃ n first exchange, ∃ u : MgmtDiscovery, s.phase.waiting = some n ∧
      s.exchange.take n = some (first, exchange) ∧ u.exchange = exchange ∧ u.Proceeds t ∧
        ∀ r ∈ u.recorded, r ∈ s.recorded ∨
          r.answerTo = first.1 ∧ ∃ routeXact, s.phase = .awaitInfo n r.path routeXact := by
  rw [receive.eq_def] at h
  split at h
  · exact absurd h (Option.some_ne_none t).symm
  · exact absurd h (Option.some_ne_none t).symm
  · rename_i n path routeXact hphase
    obtain ⟨⟨first, exchange⟩, htake, rfl⟩ := Option.map_eq_some_iff.mp h
    obtain ⟨u, hu, hrecorded, hproceeds⟩ := @proceeds_afterInfo portal path routeXact sendBuff
      first.1 first.2 { s with exchange := exchange }
    refine ⟨n, first, exchange, u, by rw [hphase, DiscoveryPhase.waiting], htake, hu, hproceeds, ?_⟩
    intro r hr
    rcases hrecorded r hr with hr | ⟨rfl, hanswer⟩
    · exact Or.inl hr
    · exact Or.inr ⟨hanswer, routeXact, hphase⟩
  · rename_i n newNode dstPort hphase
    obtain ⟨⟨first, exchange⟩, htake, rfl⟩ := Option.map_eq_some_iff.mp h
    exact ⟨n, first, exchange, _, by rw [hphase, DiscoveryPhase.waiting], htake, rfl,
      proceeds_afterInit _ _ _ _, fun r hr => Or.inl hr⟩

theorem inv_receive {sendBuff : Bool} {s t : MgmtDiscovery} (hs : s.Inv)
    (h : s.receive portal sendBuff = some t) (hfresh : ¬ s.exchange.StaleFirst) : t.Inv := by
  obtain ⟨n, first, exchange, u, hwaiting, htake, rfl, hproceeds, hrecorded⟩ := receive_cases h
  have htracks : s.exchange.Tracks (some n) := hwaiting ▸ hs.tracks
  obtain ⟨hanswer, hnone⟩ := Exchange.tracks_take htracks htake hfresh
  have hgrows : s.exchange.requests <+: u.exchange.requests := by
    obtain ⟨rest, -, hexchange⟩ := Exchange.take_eq_some htake
    rw [hexchange]
  refine hproceeds.inv hnone fun r hr => ?_
  rcases hrecorded r hr with hr | ⟨hr, routeXact, hphase⟩
  · exact (hs.recorded r hr).mono hgrows
  · rw [hr, hanswer]
    exact (hs.asks n r.path routeXact hphase).mono hgrows

theorem not_paired_receive {sendBuff : Bool} {s t : MgmtDiscovery} (hs : s.Inv)
    (h : s.receive portal sendBuff = some t) (hstale : s.exchange.StaleFirst) : ¬ t.Paired := by
  obtain ⟨n, first, exchange, u, hwaiting, htake, rfl, hproceeds, -⟩ := receive_cases h
  have htracks : s.exchange.Tracks (some n) := hwaiting ▸ hs.tracks
  intro hpaired
  refine Exchange.not_paired_take htracks htake hstale fun p hp => hpaired.1 p ?_
  rw [hproceeds.taken_eq]
  exact hp

theorem Inv.of_exchange {s : MgmtDiscovery} (hs : s.Inv)
    {exchange : Exchange MgmtRequest MgmtResponse} (htracks : exchange.Tracks s.phase.waiting)
    (hrequests : exchange.requests = s.exchange.requests) :
    Inv { s with exchange := exchange } := by
  have hmono : ∀ {n purpose}, s.Asks n purpose → Asks { s with exchange := exchange } n purpose :=
    fun h => h.mono (hrequests ▸ List.prefix_rfl)
  exact ⟨htracks, fun n path routeXact hphase => hmono (hs.asks n path routeXact hphase),
    fun r hr => hmono (hs.recorded r hr)⟩

theorem inv_timeout {s t : MgmtDiscovery} (hs : s.Inv) (h : s.timeout = some t) : t.Inv := by
  have hgiven : ∃ n exchange, s.phase.waiting = some n ∧ s.exchange.giveUp n = some exchange ∧
      t.exchange = exchange ∧ t.recorded = s.recorded ∧ t.phase.waiting = none := by
    rw [timeout.eq_def] at h
    split at h
    · exact absurd h (Option.some_ne_none t).symm
    · exact absurd h (Option.some_ne_none t).symm
    · rename_i n path routeXact hphase
      obtain ⟨exchange, hgiveUp, rfl⟩ := Option.map_eq_some_iff.mp h
      exact ⟨n, exchange, by rw [hphase, DiscoveryPhase.waiting], hgiveUp, rfl, rfl,
        waiting_catchIoError path recvTimeout⟩
    · rename_i n newNode dstPort hphase
      obtain ⟨exchange, hgiveUp, rfl⟩ := Option.map_eq_some_iff.mp h
      exact ⟨n, exchange, by rw [hphase, DiscoveryPhase.waiting], hgiveUp, rfl, rfl, rfl⟩
  obtain ⟨n, exchange, hwaiting, hgiveUp, rfl, hrecorded, hnone⟩ := hgiven
  have htracks : s.exchange.Tracks (some n) := hwaiting ▸ hs.tracks
  have hrequests : t.exchange.requests = s.exchange.requests := by
    rw [Exchange.giveUp] at hgiveUp
    split_ifs at hgiveUp
    rw [← Option.some_inj.mp hgiveUp]
  refine Proceeds.inv (s := { s with exchange := t.exchange }) (.idle rfl hrecorded hnone)
    (Exchange.tracks_giveUp htracks hgiveUp) fun r hr => ?_
  exact (hs.recorded r hr).mono (hrequests ▸ List.prefix_rfl)

theorem inv_step (s : MgmtDiscovery) (a : Action) (t : MgmtDiscovery) (hs : s.Inv)
    (h : step portal s a = some t) (hgood : s.TakesNoStale a) : t.Inv := by
  cases a with
  | next sendBuff =>
    rw [step] at h
    split at h
    · rename_i hphase
      have htracks := hs.tracks
      rw [hphase] at htracks
      exact (proceeds_nextPath h).inv htracks hs.recorded
    · exact absurd h (Option.some_ne_none t).symm
  | arrive answerTo response =>
    obtain ⟨exchange, harrive, rfl⟩ := Option.map_eq_some_iff.mp h
    refine hs.of_exchange (Exchange.tracks_arrive hs.tracks harrive) ?_
    rw [Exchange.arrive] at harrive
    split_ifs at harrive
    rw [← Option.some_inj.mp harrive]
  | lose answerTo =>
    obtain ⟨exchange, hlose, rfl⟩ := Option.map_eq_some_iff.mp h
    refine hs.of_exchange (Exchange.tracks_lose hs.tracks hlose) ?_
    rw [Exchange.lose] at hlose
    split_ifs at hlose
    rw [← Option.some_inj.mp hlose]
  | receive sendBuff => exact inv_receive hs h hgood
  | timeout => exact inv_timeout hs h

theorem inv_start {tgraph : TopoGraph} {s : MgmtDiscovery} (h : start portal tgraph = .ok s) :
    s.Inv := by
  rw [start] at h
  split at h
  · cases h
  · cases h
  · obtain rfl := Except.ok.inj h
    refine ⟨Exchange.tracks_empty, fun n path routeXact hphase => ?_, fun r hr => ?_⟩
    · exact absurd hphase DiscoveryPhase.noConfusion
    · exact absurd hr List.not_mem_nil

/-- **Responses stay paired with their transactions** in every state of an exploration exactly as
long as no transaction takes a packet while the response to one that has timed out is first in the
queue. -/
theorem paired_iff {tgraph : TopoGraph} {s t : MgmtDiscovery} {actions : List Action}
    (hstart : start portal tgraph = .ok s) (h : run (step portal) s actions = some t) :
    (∀ before u, before <+: actions → run (step portal) s before = some u → u.Paired) ↔
      EveryStep (step portal) TakesNoStale s actions := by
  refine forall_prefix_iff_everyStep (fun _ => Inv.paired) inv_step ?_ (inv_start hstart) h
  intro s a t hs h hbad
  cases a with
  | next sendBuff => exact absurd trivial hbad
  | arrive answerTo response => exact absurd trivial hbad
  | lose answerTo => exact absurd trivial hbad
  | receive sendBuff => exact not_paired_receive hs h (not_not.mp hbad)
  | timeout => exact absurd trivial hbad

/-! ## A late response -/

/-- A host on a transport, behind which there is a crossbar with three ports. -/
def hostPortal : MgmtPortal where
  protover := 0x0100
  chdrW := .w64
  myDeviceId := 1
  myEpid := 1
  -- each node is reached through the one that was found before it
  search := ⟨fun n _ _ => List.range n, fun _ _ _ => .ok Nat.pred⟩
  fuel := 8

/-- The response of a node that identifies itself. -/
def identityResponse (deviceId nodeType nodeInst extInfo : BitVec 64) : MgmtResponse :=
  .ok { hops := [⟨[.ofCode .nop, .ofCode .infoResp
    (deviceId ||| (nodeType <<< 16) ||| (nodeInst <<< 20) ||| (extInfo <<< 30))]⟩] }

/-- The crossbar, entered through port 0. -/
def hostCrossbar : TopoNode := { deviceId := 2, type := .xbar, extendedInfo := 3 }

/-- The host when it begins to explore. -/
def hostStart : MgmtDiscovery where
  tgraph := Stateful.stateAfter (TopoGraph.addNode hostPortal.myNodeId {})
  pendingPaths := [(hostPortal.myNodeId, -1)]

/-- The transport and the crossbar are found and initialized. -/
def foundCrossbar : List Action :=
  [.next true, .arrive 0 (identityResponse 2 3 0 0), .receive true, .arrive 1 (.ok {}),
    .receive true, .next true, .arrive 2 (identityResponse 2 1 0 3), .receive true,
    .arrive 3 (.ok {}), .receive true]

/-- The endpoint on port 1 of the crossbar answers when port 2 is being explored. -/
def lateResponse : List Action :=
  foundCrossbar ++ [.next true, .timeout, .next true, .arrive 4 (identityResponse 2 2 0 0),
    .receive true]

/-- The same without the delay. -/
def timelyResponse : List Action :=
  foundCrossbar ++ [.next true, .arrive 4 (identityResponse 2 2 0 0), .receive true]

theorem paired_timelyResponse : ∃ t, run (step hostPortal) hostStart timelyResponse = some t ∧
    ∀ before u, before <+: timelyResponse →
      run (step hostPortal) hostStart before = some u → u.Paired := by
  have hstart : start hostPortal {} = .ok hostStart := rfl
  refine Exists.imp (fun t ht => ⟨ht, ?_⟩) (Option.isSome_iff_exists.mp rfl)
  exact (paired_iff hstart ht).mpr (by decide)

/-- **A late response is recorded in the wrong place.**  The endpoint behind port 1 is put behind
port 2. -/
theorem late_response_taken :
    start hostPortal {} = .ok hostStart ∧
      ∃ t, run (step hostPortal) hostStart lateResponse = some t ∧
        (∃ r ∈ t.recorded, r.path = (hostCrossbar, 2) ∧ r.newNode.type = .strmEp ∧
          t.Asks r.answerTo (.identify (hostCrossbar, 1))) ∧
        ¬ t.Paired := by
  refine ⟨rfl, ?_⟩
  have hrun : (run (step hostPortal) hostStart lateResponse).map
      (fun t => (t.exchange.taken, t.recorded, t.exchange.requests.map MgmtRequest.purpose)) =
      some ([(0, 0), (1, 1), (2, 2), (3, 3), (5, 4)],
        [⟨(hostPortal.myNodeId, -1), { deviceId := 2, type := .xport }, ⟨.host, -1, -1, 1⟩, 0⟩,
          ⟨({ deviceId := 2, type := .xport }, -1), hostCrossbar, ⟨.onChip, -1, 0, 1⟩, 2⟩,
          ⟨(hostCrossbar, 2), { deviceId := 2, type := .strmEp }, ⟨.onChip, 2, -1, 1⟩, 4⟩],
        [.identify (hostPortal.myNodeId, -1), .initNode (hostPortal.myNodeId, -1),
          .identify ({ deviceId := 2, type := .xport }, -1),
          .initNode ({ deviceId := 2, type := .xport }, -1),
          .identify (hostCrossbar, 1), .identify (hostCrossbar, 2),
          .initNode (hostCrossbar, 2)]) := rfl
  obtain ⟨t, ht, heq⟩ := Option.map_eq_some_iff.mp hrun
  obtain ⟨htaken, hrest⟩ := Prod.mk.inj heq
  obtain ⟨hrecorded, hpurposes⟩ := Prod.mk.inj hrest
  have hasks : t.Asks 4 (.identify (hostCrossbar, 1)) := by
    have hget : (t.exchange.requests.map MgmtRequest.purpose)[4]? =
        some (.identify (hostCrossbar, 1)) := by rw [hpurposes]; rfl
    rw [List.getElem?_map] at hget
    exact Option.map_eq_some_iff.mp hget
  refine ⟨t, ht, ⟨⟨(hostCrossbar, 2), { deviceId := 2, type := .strmEp }, ⟨.onChip, 2, -1, 1⟩, 4⟩,
    ?_, rfl, rfl, hasks⟩, ?_⟩
  · rw [hrecorded]
    exact List.mem_cons_of_mem _ (List.mem_cons_of_mem _ List.mem_cons_self)
  · intro hpaired
    have hmem : (5, 4) ∈ t.exchange.taken := by
      rw [htaken]
      decide
    exact absurd (hpaired.1 (5, 4) hmem) (by decide)

end MgmtDiscovery
end Rfnoc
end UhdHost
