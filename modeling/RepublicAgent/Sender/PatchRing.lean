/-
This file models how the sender puts a patch request into its ring.
-/

import RepublicAgent.Library.CyclicWindow
import RepublicAgent.Message.Types

namespace RepublicAgent
open CyclicWindow

/-- The handler of `MSG_PATCH_REQ` gives the tuples that it puts in the patch ring, oldest first.
A wrapped range is split into its two halves. -/
def msgPatchReq (seqMax seqEnd : Nat) (pt : PatchTuple) : List PatchTuple :=
  let stt := pt.sttSeq % seqMax
  let endSeq := if pt.endSeq = seq2WardTheEnd then seqEnd % seqMax else pt.endSeq
  if stt < endSeq then [⟨stt, endSeq⟩]
  else if endSeq < stt then [⟨0, endSeq⟩, ⟨stt, seqMax⟩]
  else []

section Requests

variable {seqMax seqEnd last : Nat}

/-- The ring holds the window from the start of the request to its end, the wrapped half first. -/
theorem msgPatchReq_seqs (positive : 0 < seqMax) (pt : PatchTuple)
    (target : (if pt.endSeq = seq2WardTheEnd then seqEnd % seqMax else pt.endSeq) = last)
    (inside : last ≤ seqMax) :
    ((msgPatchReq seqMax seqEnd pt).flatMap PatchTuple.seqs).Perm
      (window seqMax pt.sttSeq (distance seqMax (pt.sttSeq % seqMax) last)) := by
  have start := Nat.mod_lt pt.sttSeq positive
  rw [← window_mod]
  simp only [msgPatchReq, target]
  unfold distance
  split_ifs with before reaches after
  · rw [window_inside (by omega)]
    simp [PatchTuple.seqs]
  · omega
  · omega
  · rw [show last + seqMax - pt.sttSeq % seqMax = seqMax - pt.sttSeq % seqMax + last by omega,
      window_turn (by omega) last inside]
    simpa [PatchTuple.seqs] using List.perm_append_comm
  · rw [show last - pt.sttSeq % seqMax = 0 by omega]
    simp
  · omega

/-- No tuple in the ring ends behind the last packet. -/
theorem msgPatchReq_inside (pt : PatchTuple)
    (target : (if pt.endSeq = seq2WardTheEnd then seqEnd % seqMax else pt.endSeq) = last)
    (inside : last ≤ seqMax) (part : PatchTuple) (member : part ∈ msgPatchReq seqMax seqEnd pt) :
    part.endSeq ≤ seqMax := by
  simp only [msgPatchReq, target] at member
  split_ifs at member
  · obtain rfl := List.mem_singleton.mp member
    exact inside
  · rcases List.mem_pair.mp member with rfl | rfl
    · exact inside
    · exact le_refl _
  · exact absurd member (List.not_mem_nil)

end Requests

end RepublicAgent
