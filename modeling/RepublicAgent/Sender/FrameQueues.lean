/-
This file says what the data channel thread is for: two queues of frames between the card and the host. The frames of
the fast path leave one of them, and the frames of the multicast enter the other.
-/

import RepublicAgent.Sender.EmittedFrames
import RepublicAgent.Sender.KernelRing

namespace RepublicAgent
open Execution

/-- The rings belong to the card or to the network stack of the host. -/
inductive Port where
  | nic
  | host
deriving DecidableEq, Repr

/-- The functions of the netmap library and of the receivers, and the active multicast. -/
structure PlaneConfig (World : Type) where
  netmap : Netmap
  receive : World → List UInt8 → Except Fault World
  channel : HostChannel
  source : PacketSource
  nmBurst : Int

/-- The frames that wait for the thread and the frames that the kernel has to send, with all frames that arrived and
departed. -/
structure FrameQueues (World : Type) where
  waiting : Port → List NetFrame
  pending : Port → List NetFrame
  arrived : Port → List NetFrame
  departed : Port → List NetFrame
  world : World
  cursor : SendCursor

/-- A receiver of the host handles the frame. -/
def isFast (frame : NetFrame) : Bool := isFastPath .nicToHost frame.1

/-- The queues change by a frame of the kernel or by a call of the thread. -/
inductive QueueStep {World : Type} (config : PlaneConfig World) : FrameQueues World → FrameQueues World → Prop
  | arrive (queues : FrameQueues World) (port : Port) (frame : NetFrame) :
      QueueStep config queues { queues with
        waiting := Function.update queues.waiting port (queues.waiting port ++ [frame])
        arrived := Function.update queues.arrived port (queues.arrived port ++ [frame]) }
  | depart (queues : FrameQueues World) (port : Port) (frame : NetFrame) (rest : List NetFrame)
      (first : queues.pending port = frame :: rest) :
      QueueStep config queues { queues with
        pending := Function.update queues.pending port rest
        departed := Function.update queues.departed port (queues.departed port ++ [frame]) }
  | toHost (queues : FrameQueues World) (taken rest : List NetFrame) (world : World)
      (first : queues.waiting .nic = taken ++ rest)
      (handled : execute config.receive queues.world ((taken.filter isFast).map Prod.fst) = .ok world) :
      QueueStep config queues { queues with
        waiting := Function.update queues.waiting .nic rest
        pending := Function.update queues.pending .host
          (queues.pending .host ++ taken.filter fun frame => !isFast frame)
        world := world }
  | toNic (queues : FrameQueues World) (taken rest : List NetFrame) (first : queues.waiting .host = taken ++ rest) :
      QueueStep config queues { queues with
        waiting := Function.update queues.waiting .host rest
        pending := Function.update queues.pending .nic (queues.pending .nic ++ taken) }
  | emit (queues : FrameQueues World) (buf : List UInt8) (frame : NetFrame) (cursor : SendCursor)
      (filled : fillFrame config.channel config.source queues.cursor buf = some (frame, cursor)) :
      QueueStep config queues { queues with
        pending := Function.update queues.pending .nic (queues.pending .nic ++ [frame])
        cursor := cursor }

/-- The third list mixes the first two and keeps the order of both. -/
inductive Interleaved {Item : Type} : List Item → List Item → List Item → Prop
  | nil : Interleaved [] [] []
  | first {first second whole : List Item} (before : Interleaved first second whole) (item : Item) :
      Interleaved (first ++ [item]) second (whole ++ [item])
  | second {first second whole : List Item} (before : Interleaved first second whole) (item : Item) :
      Interleaved first (second ++ [item]) (whole ++ [item])

/-- No frame is lost, doubled or overtaken. The host gets the frames of the card but for those that its receivers
handle. The card gets the frames of the host between the frames of the multicast. -/
structure FrameQueues.Flows {World : Type} (config : PlaneConfig World) (world : World) (cursor : SendCursor)
    (queues : FrameQueues World) : Prop where
  toHost : (queues.arrived .nic).filter (fun frame => !isFast frame) =
    queues.departed .host ++ queues.pending .host ++ (queues.waiting .nic).filter fun frame => !isFast frame
  toReceiver : ∃ handled, (queues.arrived .nic).filter isFast = handled ++ (queues.waiting .nic).filter isFast ∧
    execute config.receive world (handled.map Prod.fst) = .ok queues.world
  toNic : ∃ stack frames bufs, Interleaved stack frames (queues.departed .nic ++ queues.pending .nic) ∧
    queues.arrived .host = stack ++ queues.waiting .host ∧
    fillFrames config.channel config.source cursor bufs = some (frames, queues.cursor)

section Mixing

variable {Item : Type} {first second whole : List Item}

/-- More items of the first list can follow. -/
theorem Interleaved.append_first (mixed : Interleaved first second whole) (items : List Item) :
    Interleaved (first ++ items) second (whole ++ items) := by
  induction items generalizing first whole with
  | nil =>
      rw [List.append_nil, List.append_nil]
      exact mixed
  | cons item items ih =>
      rw [List.append_cons first, List.append_cons whole]
      exact ih (mixed.first item)

end Mixing

section Steps

variable {World : Type} {config : PlaneConfig World} {world : World} {cursor last : SendCursor}

/-- One more frame is filled behind the others. -/
theorem fillFrames_snoc {channel : HostChannel} {source : PacketSource} {start next : SendCursor}
    {bufs : List (List UInt8)} {frames : List NetFrame} {buf : List UInt8} {frame : NetFrame}
    (before : fillFrames channel source start bufs = some (frames, next))
    (filled : fillFrame channel source next buf = some (frame, last)) :
    fillFrames channel source start (bufs ++ [buf]) = some (frames ++ [frame], last) := by
  induction bufs generalizing start frames with
  | nil =>
      obtain ⟨rfl, rfl⟩ := Prod.mk.inj (Option.some.inj before)
      rw [List.nil_append, fillFrames, filled]
      rfl
  | cons first bufs ih =>
      simp only [fillFrames, Option.bind_eq_some_iff, Option.map_eq_some_iff, Prod.exists] at before
      obtain ⟨one, length, middle, put, rest, final, behind, same⟩ := before
      obtain ⟨rfl, rfl⟩ := Prod.mk.inj same
      rw [List.cons_append, fillFrames, put, Option.bind_some, ih behind]
      rfl

/-- Every change of the queues keeps the order of the frames. -/
theorem FrameQueues.Flows.step {queues next : FrameQueues World} (flows : queues.Flows config world cursor)
    (taken : QueueStep config queues next) : next.Flows config world cursor := by
  obtain ⟨toHost, ⟨handled, fast, seen⟩, stack, frames, bufs, mixed, sent, filled⟩ := flows
  cases taken with
  | arrive port frame =>
      cases port with
      | nic =>
          refine ⟨?_, ⟨handled, ?_, seen⟩, stack, frames, bufs, mixed, sent, filled⟩
          · simp only [Function.update_self, List.filter_append, toHost, List.append_assoc]
          · simp only [Function.update_self, List.filter_append, fast, List.append_assoc]
      | host =>
          refine ⟨toHost, ⟨handled, fast, seen⟩, stack, frames, bufs, mixed, ?_, filled⟩
          simp only [Function.update_self, sent, List.append_assoc]
  | depart port frame rest first =>
      cases port with
      | nic =>
          refine ⟨toHost, ⟨handled, fast, seen⟩, stack, frames, bufs, ?_, sent, filled⟩
          simp only [Function.update_self, List.append_assoc, List.singleton_append, ← first]
          exact mixed
      | host =>
          refine ⟨?_, ⟨handled, fast, seen⟩, stack, frames, bufs, mixed, sent, filled⟩
          simp only [Function.update_self, toHost, first, List.append_assoc, List.singleton_append]
  | toHost moved rest next first done =>
      refine ⟨?_, ⟨handled ++ moved.filter isFast, ?_, ?_⟩, stack, frames, bufs, mixed, sent, filled⟩
      · rw [first, List.filter_append] at toHost
        simp only [Function.update_self, toHost, List.append_assoc]
      · rw [first, List.filter_append] at fast
        simp only [Function.update_self, fast, List.append_assoc]
      · rw [List.map_append]
        exact execute_append_ok.mpr ⟨_, seen, done⟩
  | toNic moved rest first =>
      refine ⟨toHost, ⟨handled, fast, seen⟩, stack ++ moved, frames, bufs, ?_, ?_, filled⟩
      · simp only [Function.update_self, ← List.append_assoc]
        exact mixed.append_first moved
      · simp only [Function.update_self, sent, first, List.append_assoc]
  | emit buf frame next put =>
      refine ⟨toHost, ⟨handled, fast, seen⟩, stack, frames ++ [frame], bufs ++ [buf], ?_, sent,
        fillFrames_snoc filled put⟩
      simp only [Function.update_self, ← List.append_assoc]
      exact mixed.second frame

/-- The order of the frames is kept by any number of changes. -/
theorem FrameQueues.Flows.steps {queues next : FrameQueues World} (flows : queues.Flows config world cursor)
    (taken : Relation.ReflTransGen (QueueStep config) queues next) : next.Flows config world cursor := by
  induction taken with
  | refl => exact flows
  | tail _ step ih => exact ih.step step

end Steps

end RepublicAgent
