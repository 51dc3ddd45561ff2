/-
This file models `sendMsg` of `hero.c` and says how many tokens one call completes.
-/

import RepublicAgent.Channel.Message

namespace RepublicAgent

/-- The bytes that one `send` is asked for. The padding is sent apart from the message. -/
def MsgToken.request (token : MsgToken) : List UInt8 :=
  if token.byteSent < token.buf.length then token.buf.drop token.byteSent
  else List.replicate (token.buf.length + token.paddingLen - token.byteSent) 0

/-- The bytes of a token on the wire. -/
def MsgToken.wire (token : MsgToken) : List UInt8 := token.buf ++ List.replicate token.paddingLen 0

/-- The bytes that a token has still to hand over. -/
def MsgToken.rest (token : MsgToken) : List UInt8 :=
  token.wire.drop token.byteSent

/-- The result of `send` is a byte count, zero or an error below zero. It never exceeds the request. -/
def MsgToken.accepted (token : MsgToken) (result : Int) : Nat :=
  min result.toNat token.request.length

theorem MsgToken.request_le (token : MsgToken) : token.request.length ≤ token.rest.length := by
  have unsent := token.unsent
  unfold request rest wire
  split_ifs
  · simp only [List.length_drop, List.length_append, List.length_replicate]
    omega
  · simp

@[simp] theorem MsgToken.rest_length (token : MsgToken) :
    token.rest.length = token.buf.length + token.paddingLen - token.byteSent := by
  simp [rest, wire]

/-- An existing token has a byte to send. -/
theorem MsgToken.rest_ne_nil (token : MsgToken) : token.rest ≠ [] := by
  have unsent := token.unsent
  intro empty
  have size := token.rest_length
  rw [empty] at size
  simp at size
  omega

/-- A token with all bytes sent is deleted. -/
def MsgToken.advance (token : MsgToken) (sent : Nat) (within : sent ≤ token.request.length) :
    Option MsgToken :=
  if done : token.byteSent + sent = token.buf.length + token.paddingLen then none
  else some { token with
    byteSent := token.byteSent + sent
    unsent := by
      have bounded := token.request_le
      have unsent := token.unsent
      rw [token.rest_length] at bounded
      omega }

/-- One `send` gives what is left of the token and the bytes for the socket. Zero and an error leave
the token as it is. -/
def MsgToken.send (token : MsgToken) (result : Int) : Option MsgToken × List UInt8 :=
  if token.accepted result = 0 then (some token, [])
  else (token.advance (token.accepted result) (Nat.min_le_right _ _),
    token.request.take (token.accepted result))

/-- A call of `sendMsg` leaves the token that it carries over, the queue and the bytes for the socket. -/
structure SendOutcome where
  remain : Option MsgToken
  queue : List MsgToken
  handed : List UInt8
deriving DecidableEq, Repr

/-- A list of results that has ended stands for a `send` that would block. -/
def nextResult : List Int → Int
  | [] => -1
  | result :: _ => result

/-- The loop goes on to the next token only behind a completed one. -/
def sendLoop (token : MsgToken) (queue : List MsgToken) (results : List Int) : SendOutcome :=
  match token.send (nextResult results), queue with
  | (some rest, bytes), queue => ⟨some rest, queue, bytes⟩
  | (none, bytes), [] => ⟨none, [], bytes⟩
  | (none, bytes), next :: queue =>
      let outcome := sendLoop next queue results.tail
      { outcome with handed := bytes ++ outcome.handed }

/-- The carried token comes before the queue. -/
def sendMsg (remain : Option MsgToken) (queue : List MsgToken) (results : List Int) : SendOutcome :=
  match remain, queue with
  | some token, queue => sendLoop token queue results
  | none, token :: queue => sendLoop token queue results
  | none, [] => ⟨none, [], []⟩

/-- A token is completed when its one `send` is asked for its whole rest and takes it. -/
def MsgToken.completedBy (token : MsgToken) (result : Int) : Bool :=
  token.request.length = token.rest.length ∧ (token.rest.length : Int) ≤ result

/-- The number of tokens that the results of `send` complete. Each token has one `send` in a call. -/
def completedTokens : List MsgToken → List Int → Nat
  | [], _ => 0
  | token :: tokens, results =>
      if token.completedBy (nextResult results) then completedTokens tokens results.tail + 1 else 0

theorem completedTokens_le (tokens : List MsgToken) (results : List Int) :
    completedTokens tokens results ≤ tokens.length := by
  induction tokens generalizing results with
  | nil => exact le_refl 0
  | cons token tokens ih =>
      have bounded := ih results.tail
      rw [completedTokens, List.length_cons]
      split_ifs <;> omega

/-- A token without a completing `send` stays. -/
theorem MsgToken.send_eq_none_iff (token : MsgToken) (result : Int) :
    (token.send result).1 = none ↔ token.completedBy result = true := by
  have bounded := token.request_le
  have unsent := token.unsent
  have size := token.rest_length
  unfold send advance
  simp only [completedBy, decide_eq_true_eq]
  split_ifs with nothing done
  · simp only [false_iff, not_and]
    intro whole enough
    unfold accepted at nothing
    omega
  · simp only [true_iff]
    unfold accepted at done
    omega
  · simp only [false_iff, not_and]
    intro whole enough
    apply done
    unfold accepted
    omega

/-- The call carries a token over exactly when it does not complete all tokens. The queue behind it
is what was not reached. -/
theorem sendLoop_leaves (token : MsgToken) (queue : List MsgToken) (results : List Int) :
    (sendLoop token queue results).queue = queue.drop (completedTokens (token :: queue) results) ∧
      ((sendLoop token queue results).remain = none ↔
        completedTokens (token :: queue) results = queue.length + 1) := by
  induction queue generalizing token results with
  | nil =>
      have gone := token.send_eq_none_iff (nextResult results)
      rw [completedTokens, sendLoop.eq_def]
      cases sent : token.send (nextResult results) with
      | mk left bytes =>
          cases left with
          | some rest => rw [if_neg (by simp [← gone, sent])]; simp
          | none => rw [if_pos (by simp [← gone, sent])]; simp [completedTokens]
  | cons next queue ih =>
      have gone := token.send_eq_none_iff (nextResult results)
      obtain ⟨reached, carried⟩ := ih next results.tail
      rw [completedTokens, sendLoop.eq_def]
      cases sent : token.send (nextResult results) with
      | mk left bytes =>
          cases left with
          | some rest => rw [if_neg (by simp [← gone, sent])]; simp
          | none =>
              rw [if_pos (by simp [← gone, sent])]
              exact ⟨reached, by simpa using carried⟩

/-- The request is the next part of the rest. -/
theorem MsgToken.request_eq (token : MsgToken) : token.request = token.rest.take token.request.length := by
  unfold request rest wire
  split_ifs with within
  · rw [List.drop_append_of_le_length (le_of_lt within), List.take_left]
  · rw [List.drop_append, List.drop_eq_nil_of_le (not_lt.mp within), List.nil_append, List.drop_replicate]
    rw [List.length_replicate, List.take_replicate]
    congr 1
    omega

/-- The bytes for the socket and the rest of what is left make up the rest from before. -/
theorem MsgToken.send_conserves (token : MsgToken) (result : Int) :
    (token.send result).2 ++ (token.send result).1.toList.flatMap MsgToken.rest = token.rest := by
  have bounded := token.request_le
  have taken : ∀ count, token.request.take count = token.rest.take (min count token.request.length) := by
    intro count
    conv_lhs => rw [token.request_eq, List.take_take]
  unfold send
  split_ifs with nothing
  · simp
  · have most : min (token.accepted result) token.request.length = token.accepted result :=
      Nat.min_eq_left (Nat.min_le_right _ _)
    unfold advance
    rw [taken, most]
    split_ifs with done
    · have size := token.rest_length
      rw [List.take_of_length_le (by omega)]
      simp
    · simp [rest, wire]

/-- The tokens of a connection, the carried one first. -/
def pendingTokens (remain : Option MsgToken) (queue : List MsgToken) : List MsgToken :=
  remain.toList ++ queue

/-- A call hands over a part of the pending bytes, in their order, and keeps the others. -/
theorem sendMsg_conserves (remain : Option MsgToken) (queue : List MsgToken) (results : List Int) :
    (sendMsg remain queue results).handed ++
        (pendingTokens (sendMsg remain queue results).remain (sendMsg remain queue results).queue).flatMap
          MsgToken.rest =
      (pendingTokens remain queue).flatMap MsgToken.rest := by
  have loop : ∀ (queue : List MsgToken) (token : MsgToken) (results : List Int),
      (sendLoop token queue results).handed ++
          (pendingTokens (sendLoop token queue results).remain (sendLoop token queue results).queue).flatMap
            MsgToken.rest =
        (token :: queue).flatMap MsgToken.rest := by
    intro queue
    induction queue with
    | nil =>
        intro token results
        have kept := token.send_conserves (nextResult results)
        rw [sendLoop.eq_def]
        cases sent : token.send (nextResult results) with
        | mk left bytes =>
            rw [sent] at kept
            cases left with
            | some rest => simpa [pendingTokens] using kept
            | none => simpa [pendingTokens] using kept
    | cons next queue ih =>
        intro token results
        have kept := token.send_conserves (nextResult results)
        rw [sendLoop.eq_def]
        cases sent : token.send (nextResult results) with
        | mk left bytes =>
            rw [sent] at kept
            cases left with
            | some rest => simpa [pendingTokens, ← List.append_assoc] using kept
            | none =>
                have later := ih next results.tail
                simp only [Option.toList_none, List.flatMap_nil, List.append_nil] at kept
                rw [List.append_assoc, later, kept, ← List.flatMap_cons]
  cases remain with
  | some token => exact loop queue token results
  | none =>
      cases queue with
      | nil => rfl
      | cons token queue => exact loop queue token results

/-- A call strands a token when it carries it over with an empty queue behind it. -/
theorem sendMsg_strands (remain : Option MsgToken) (queue : List MsgToken) (results : List Int) :
    ((sendMsg remain queue results).remain ≠ none ∧ (sendMsg remain queue results).queue = []) ↔
      completedTokens (pendingTokens remain queue) results + 1 = (pendingTokens remain queue).length := by
  have loop : ∀ (token : MsgToken) (rest : List MsgToken),
      ((sendLoop token rest results).remain ≠ none ∧ (sendLoop token rest results).queue = []) ↔
        completedTokens (token :: rest) results + 1 = (token :: rest).length := by
    intro token rest
    obtain ⟨left, carried⟩ := sendLoop_leaves token rest results
    have bounded := completedTokens_le (token :: rest) results
    rw [List.length_cons] at bounded
    rw [left, Ne, carried, List.drop_eq_nil_iff, List.length_cons]
    omega
  cases remain with
  | some token => exact loop token queue
  | none =>
      cases queue with
      | nil => simp [sendMsg, pendingTokens, completedTokens]
      | cons token queue => exact loop token queue

end RepublicAgent
