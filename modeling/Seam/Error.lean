set_option autoImplicit false

namespace Seam

inductive SelectionFault where
  | subsetOrder (first second : Nat)
  | subsetFace (face faces : Nat)
  | recordCount (vertices records : Nat)
  | repeatedVertex (vertex : Nat)
  | parentFace (face faces : Nat)
  | unselectedVertex (face vertex : Nat)
  | sentFace (face faces : Nat)
  | globalOrder (first second : UInt64)
  | incomplete (rank received selected : Nat)
deriving DecidableEq, Repr

def SelectionFault.message : SelectionFault → String
  | .subsetOrder first second => s!"subset must be strictly increasing, found {first} before {second}"
  | .subsetFace face faces => s!"face {face} out of range (parent has {faces} faces)"
  | .recordCount vertices records => s!"{vertices} selected vertices but {records} vertex records"
  | .repeatedVertex vertex => s!"parent vertex {vertex} selected twice"
  | .parentFace face faces => s!"parent face {face} out of range ({faces} faces)"
  | .unselectedVertex face vertex => s!"face {face} uses parent vertex {vertex}, which is not selected"
  | .sentFace face faces => s!"face {face} out of range ({faces} faces)"
  | .globalOrder first second => s!"global selection must be strictly increasing, found {first} before {second}"
  | .incomplete rank received selected => s!"[rank {rank}] received {received} of {selected} selected faces"

inductive RankIndexFault where
  | sendLength (entries ranks : Nat)
  | sendShape
  | length (entries ranks : Nat)
  | decrease (first second : UInt64)
deriving DecidableEq, Repr

def RankIndexFault.message : RankIndexFault → String
  | .sendLength entries ranks => s!"send index has {entries} entries for {ranks} ranks"
  | .sendShape => "send index must be non-decreasing from 0 to the number of sent faces"
  | .length entries ranks => s!"{entries} entries for {ranks} ranks"
  | .decrease first second => s!"index decreases from {first} to {second}"

inductive ConnectivityFault where
  | indexLength (entries faces : Nat)
  | indexStart
  | indexDecrease (face : Nat)
  | indexEnd (last entries : Nat)
  | parentSpan (face start stop entries : Nat)
  | edgeNumber (number : Int) (edges : Nat)
  | coupleCount (couples edges : Nat)
  | uncoveredCouples
  | edgeEnds (edge first second : Nat)
  | edgeVertices (covered vertices : Nat)
deriving DecidableEq, Repr

def ConnectivityFault.message : ConnectivityFault → String
  | .indexLength entries faces => s!"index has {entries} entries for {faces} faces"
  | .indexStart => "index must start at 0"
  | .indexDecrease face => s!"index decreases at face {face}"
  | .indexEnd last entries => s!"index ends at {last} but the list holds {entries} entries"
  | .parentSpan face start stop entries => s!"parent face {face} spans [{start}, {stop}) in a list of {entries}"
  | .edgeNumber number edges => s!"edge number {number} out of range ({edges} edges)"
  | .coupleCount couples edges => s!"adjacency holds {couples} couples for {edges} edges"
  | .uncoveredCouples => "vertex index does not cover the adjacency list"
  | .edgeEnds edge first second => s!"edge {edge} is defined by ({first}, {second})"
  | .edgeVertices covered vertices => s!"edges cover {covered} vertices, mesh has {vertices}"

inductive VertexMapFault where
  | length (entries vertices : Nat)
  | target (old new vertices : Nat)
  | tableLength (records vertices : Nat)
deriving DecidableEq, Repr

def VertexMapFault.message : VertexMapFault → String
  | .length entries vertices => s!"{entries} entries for {vertices} vertices"
  | .target old new vertices => s!"vertex {old} maps to {new}, beyond {vertices} new vertices"
  | .tableLength records vertices => s!"vertex table holds {records} records for {vertices} new vertices"

inductive InsertionFault where
  | edge (e edges : Nat)
  | length (entries edges : Nat)
  | shape
  | vertex (v vertices : Nat)
deriving DecidableEq, Repr

def InsertionFault.message : InsertionFault → String
  | .edge e edges => s!"edge {e} out of range ({edges} edges)"
  | .length entries edges => s!"index has {entries} entries for {edges} edges"
  | .shape => "index must be non-decreasing from 0 to the list length"
  | .vertex v vertices => s!"new vertex {v} out of range ({vertices} new vertices)"

inductive LinkFault where
  | gatherLength (expected received : Nat)
  | gatherNothing
  | sizeLength (expected received : Nat)
  | sizeNothing
  | payloadLength (expected received : Nat)
  | payloadNothing
deriving DecidableEq, Repr

def LinkFault.message (peer : Nat) : LinkFault → String
  | .gatherLength expected received => s!"allgather expected {expected} bytes, got {received}"
  | .gatherNothing => s!"allgather received nothing from rank {peer}"
  | .sizeLength expected received => s!"expected {expected} bytes for size header, got {received}"
  | .sizeNothing => s!"failed to receive size from rank {peer}"
  | .payloadLength expected received => s!"expected {expected} payload bytes from {peer}, got {received}"
  | .payloadNothing => s!"failed to receive payload from rank {peer}"

inductive WireFault where
  | gatherBuffer (bytes expected : Nat)
  | sizeCounts (counts ranks : Nat)
  | length (expected actual : Nat)
  | wideCount (count : Nat)
  | recordOverflow (records : Nat)
  | truncated (needed records left : Nat)
  | version (found expected : UInt16)
  | kind (found expected : UInt16)
  | answerCount (owner answered sent : Nat)
  | reduceCount (records : Nat) (met : UInt64)
deriving DecidableEq, Repr

def WireFault.message : WireFault → String
  | .gatherBuffer bytes expected => s!"allgather receive buffer holds {bytes} bytes, expected {expected}"
  | .sizeCounts counts ranks => s!"exchange_sizes got {counts} counts for {ranks} ranks"
  | .length expected actual => s!"expected {expected} bytes, got {actual}"
  | .wideCount count => s!"count {count} does not fit a 32-bit wire field"
  | .recordOverflow records => s!"record count {records} overflows"
  | .truncated needed records left => s!"need {needed} bytes for {records} records, only {left} left"
  | .version found expected => s!"wire version {found} (expected {expected})"
  | .kind found expected => s!"message kind {found} (expected {expected})"
  | .answerCount owner answered sent => s!"rank {owner} answered {answered} records for {sent} sent"
  | .reduceCount records met => s!"reduce_vertices over {records} records met a rank with {met}"

inductive Error where
  | missingEdge (first second : Nat)
  | unresolvedOwner (rank : Nat) (gnum : UInt64)
  | faceNotOwned (rank requester : Nat) (gnum : UInt64)
  | selection (fault : SelectionFault)
  | rankIndex (fault : RankIndexFault)
  | zeroGnum (rank vertex : Nat)
  | degenerateFace (face : Nat) (gnum : UInt64) (vertices : Nat)
  | inconsistentFace (gnum : UInt64)
  | vertexOutOfRange (face vertex vertices : Nat)
  | connectivity (fault : ConnectivityFault)
  | vertexMap (fault : VertexMapFault)
  | insertions (fault : InsertionFault)
  | uncoveredVertex (vertex : Nat)
  | link (peer : Nat) (fault : LinkFault)
  | wire (fault : WireFault)
  | sinkFull
deriving DecidableEq, Repr

def Error.message : Error → String
  | .missingEdge first second => s!"Topology error: no edge between local vertices {first} and {second}"
  | .unresolvedOwner rank gnum => s!"[rank {rank}] global face {gnum} has no owner in the rank index"
  | .faceNotOwned rank requester gnum =>
      s!"[rank {rank}] global face {gnum} requested by rank {requester} is not held locally"
  | .selection fault => "Invalid selection: " ++ fault.message
  | .rankIndex fault => "Invalid rank index: " ++ fault.message
  | .zeroGnum rank vertex => s!"[rank {rank}] vertex {vertex} carries the invalid global number 0"
  | .degenerateFace face gnum vertices =>
      s!"face {face} (global number {gnum}) is defined by {vertices} vertices after cleaning (excessive merging)"
  | .inconsistentFace gnum => s!"global face {gnum} appears twice with different connectivity"
  | .vertexOutOfRange face vertex vertices =>
      s!"face {face} references vertex {vertex}, but the mesh has {vertices} vertices"
  | .connectivity fault => "Invalid connectivity: " ++ fault.message
  | .vertexMap fault => "Invalid vertex map: " ++ fault.message
  | .insertions fault => "Invalid edge insertions: " ++ fault.message
  | .uncoveredVertex vertex =>
      s!"new vertex {vertex} is not the image of any old vertex and no vertex table was supplied"
  | .link peer fault => s!"Communication error with rank {peer}: " ++ fault.message peer
  | .wire fault => "Wire format error: " ++ fault.message
  | .sinkFull => "I/O error: sink full"

-- An operation ends early because it refuses its input, or because malformed data made it look outside a list.
-- The second outcome is kept apart from every value, so that its absence can be stated.
inductive Failure where
  | error (cause : Error)
  | outOfBounds
deriving DecidableEq, Repr

abbrev Result (α : Type) := Except Failure α

def refuse {α : Type} (cause : Error) : Result α := .error (.error cause)

def fetch {α : Type} (items : List α) (i : Nat) : Result α :=
  match items[i]? with
  | some item => .ok item
  | none => .error .outOfBounds

def store {α : Type} (items : List α) (i : Nat) (item : α) : Result (List α) :=
  if i < items.length then .ok (items.set i item) else .error .outOfBounds

def slice {α : Type} (items : List α) (start stop : Nat) : Result (List α) :=
  if start ≤ stop ∧ stop ≤ items.length then .ok ((items.take stop).drop start) else .error .outOfBounds

def overlay {α : Type} (items : List α) (start : Nat) (part : List α) : Result (List α) :=
  if start + part.length ≤ items.length then
    .ok (items.take start ++ part ++ items.drop (start + part.length))
  else .error .outOfBounds

-- Change the items by those of another list, place by place; what is beyond the other list stays.
def zipOver {α β : Type} (change : α → β → α) : List α → List β → List α
  | a :: items, b :: others => change a b :: zipOver change items others
  | items, _ => items

end Seam
