-- SUMMARY: Running a pipeline: one order of moves, and what the pipeline comes to.
import Conch.Pipeline.Network

/-!
# Running pipelines

A pipeline is started stage by stage. Then its stages and relays take turns from
left to right, each moving as long as it can, and the interpreter waits for them,
until nothing can move any more. The status is that of the last stage.
The session it runs in is not affected: no stage sees the `cd` of another, and
`exit` only gives a status.
-/

namespace Conch

namespace Network

/-- The number of bytes that a pipe holds. -/
def pipeSize : Nat := 65536

/-- The moves of one round, from left to right, each transferring as much as it can. -/
def round (net : Network) : List Move :=
  .start pipeSize pipeSize :: ((List.range net.members.length).flatMap fun i =>
    [.stage i Relay.chunkSize, .relay i Relay.chunkSize]) ++ [.wait]

/-- Go through the moves that are left of a round, making each as often as it is possible, and
    begin another round if anything `moved` in this one. `fuel` bounds the number of attempts. -/
def advance (programs : Programs) (ctx : Context) :
    Nat → List Move → Bool → Network → Network
  | 0, _, _, net => net
  | fuel + 1, [], moved, net =>
    if moved then advance programs ctx fuel net.round false net else net
  | fuel + 1, move :: rest, moved, net =>
    match net.step programs ctx move with
    | some net => advance programs ctx fuel (move :: rest) true net
    | none => advance programs ctx fuel rest moved net

/-- The files that the stages have left open. -/
def owned (net : Network) : List Handle :=
  net.leftover ++ net.members.flatMap fun m =>
    match m.task with
    | .ended e => e.owned
    | .running _ => []

/-- What a pipeline came to: the first fault, or else the status of the last stage. -/
def outcome (net : Network) : Outcome :=
  match net.aborted, net.fault with
  | some fault, _ => .failed fault
  | none, some fault => .failed fault
  | none, none => .status (net.statuses.getLast?.getD 0)

end Network

namespace Pipeline

/-- A number of attempts to move that no pipeline comes near. -/
def patience : Nat := 1000000000000000

/-- Run a pipeline in a session. -/
def run (programs : Programs) (ctx : Context) (p : Pipeline) (w : World) : Outcome × World :=
  let start := Network.ofPipeline p w
  let net := start.advance programs ctx patience start.round false
  (net.outcome, net.owned.foldl World.close net.world)

end Pipeline

end Conch
