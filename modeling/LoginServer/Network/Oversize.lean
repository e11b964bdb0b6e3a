import LoginServer.Network.Accepting
import LoginServer.Network.WriteTurns
import LoginServer.Nlohmann.Escaping

/-!
# The answer to an oversize frame

A length above `kMaxFrameBytes` is answered with `ERR_OVERSIZE` and the connection is
reaped. The answer is only posted to the strand of the socket, behind the responses that
were posted before it. Nothing makes `reapSocket` wait for the strand: the answer is
written exactly if, before its `close`, the strand has run the lambdas of all these payloads
and the completion handlers of the writes in front of the answer (`oversize_answered_iff`).
A lambda that comes later finds the socket closed, and `doNextWrite` drops what waits.
-/

namespace LoginServer

open Machines protocol

namespace Writes

variable {st st' : Writes} {l : WriteLabel} {s : SocketId}

/-! ## What is not handed over before the close never is -/

/-- Socket objects keep their numbers, what was posted stays posted, and nothing is handed
over on a socket that is closed. -/
structure Grows (st st' : Writes) : Prop where
  nextSocket : st.nextSocket ≤ st'.nextSocket
  posted : ∀ s, st.posted s <+: st'.posted s
  closed : ∀ s, s < st.nextSocket → st.isOpen s = false →
    st'.isOpen s = false ∧ st'.handed s = st.handed s

theorem Grows.refl (st : Writes) : Grows st st :=
  ⟨Nat.le_refl _, fun _ => List.prefix_refl _, fun _ _ hs => ⟨hs, rfl⟩⟩

theorem Grows.trans {st₁ st₂ st₃ : Writes} (h : Grows st₁ st₂) (h' : Grows st₂ st₃) :
    Grows st₁ st₃ := by
  refine ⟨h.nextSocket.trans h'.nextSocket, fun s => (h.posted s).trans (h'.posted s), ?_⟩
  intro s hlt hs
  obtain ⟨hs₂, hhanded⟩ := h.closed s hlt hs
  obtain ⟨hs₃, hhanded'⟩ := h'.closed s (Nat.lt_of_lt_of_le hlt h.nextSocket) hs₂
  exact ⟨hs₃, hhanded'.trans hhanded⟩

/-- A step that leaves the socket objects as they are. -/
theorem Grows.of_sockets (hsockets : st'.sockets = st.sockets)
    (hnext : st'.nextSocket = st.nextSocket) (hposted : ∀ s, st.posted s <+: st'.posted s)
    (hhanded : ∀ s, st.isOpen s = false → st'.handed s = st.handed s) : Grows st st' := by
  refine ⟨hnext.ge, hposted, fun s _ hs => ⟨?_, hhanded s hs⟩⟩
  rw [isOpen, hsockets]
  exact hs

theorem grows_close (st : Writes) (s : SocketId) : Grows st (st.close s) := by
  refine ⟨Nat.le_refl _, fun _ => List.prefix_refl _, fun s' _ hs' => ⟨?_, rfl⟩⟩
  rcases eq_or_ne s' s with rfl | hne
  · exact isOpen_close s'
  · simpa [isOpen, close, hne] using hs'

theorem grows_doNextWrite (q : QueueId) (queue : SocketWriteQueue) :
    Grows st (st.doNextWrite s q queue) := by
  have hposted : ∀ s', st.posted s' <+: st.posted s' := fun s' => List.prefix_refl _
  unfold doNextWrite
  split
  · exact .of_sockets rfl rfl hposted fun _ _ => rfl
  · split
    next => exact .of_sockets rfl rfl hposted fun _ _ => rfl
    next hopen =>
      refine .of_sockets rfl rfl hposted fun s' hs' => ?_
      have hne : s' ≠ s := by
        rintro rfl
        simp [hs'] at hopen
      exact Function.update_of_ne hne _ _

theorem grows_runTask (q : QueueId) (queue : SocketWriteQueue) (task : StrandTask) :
    Grows st (st.runTask q queue task) := by
  have hset : ∀ queue' : SocketWriteQueue, Grows st (st.setQueue q queue') := fun queue' =>
    .of_sockets rfl rfl (fun s' => List.prefix_refl _) fun _ _ => rfl
  cases task with
  | enqueued s data =>
    simp only [runTask]
    split
    · exact grows_doNextWrite q _
    · exact hset _
  | completed s error =>
    simp only [runTask]
    split
    · exact (hset _).trans (grows_close _ s)
    · exact grows_doNextWrite q queue

theorem grows_getOrCreateWriteQueue (key : Nat) (s : SocketId) :
    Grows st (st.getOrCreateWriteQueue key s).2 := by
  have hsame : Grows st (st.newQueue key s).2 :=
    .of_sockets rfl rfl (fun s' => List.prefix_refl _) fun _ _ => rfl
  unfold getOrCreateWriteQueue
  split
  · split
    · exact .refl st
    · exact hsame
  · exact hsame

theorem grows_of_step (h : st.step l = some st') : Grows st st' := by
  have hposted : ∀ s', st.posted s' <+: st.posted s' := fun s' => List.prefix_refl _
  cases step_cases h with
  | accept =>
    refine ⟨Nat.le_succ _, hposted, fun s hlt hs => ⟨?_, rfl⟩⟩
    simpa [isOpen, Function.update_of_ne hlt.ne] using hs
  | @destroy s =>
    refine ⟨Nat.le_refl _, hposted, fun s' _ hs' => ⟨?_, rfl⟩⟩
    rcases eq_or_ne s' s with rfl | hne
    · simp [isOpen]
    · simpa [isOpen, hne] using hs'
  | close s => exact grows_close st s
  | removeWriteQueue =>
    unfold removeWriteQueue
    split
    · exact .refl st
    · split
      · exact .refl st
      · exact .of_sockets rfl rfl hposted fun _ _ => rfl
  | @enqueueWrite s _ o =>
    exact (grows_getOrCreateWriteQueue o.address s).trans
      (.of_sockets rfl rfl (fun s' => List.prefix_refl _) fun _ _ => rfl)
  | @post _ call =>
    refine .of_sockets rfl rfl (fun s' => ?_) fun _ _ => rfl
    rcases eq_or_ne s' call.socket with rfl | hne
    · simp
    · simp [hne]
  | runTask => exact grows_runTask _ _ _
  | release | gcWriteQueues | complete => exact .of_sockets rfl rfl hposted fun _ _ => rfl

theorem Later.grows (h : Later st st') : Grows st st' := by
  induction h with
  | refl => exact .refl st
  | tail _ hstep ih =>
    obtain ⟨l, hstep⟩ := hstep
    exact ih.trans (grows_of_step hstep)

/-! ## The payload of a response -/

theorem getOrCreateWriteQueue_frame (key : Nat) (s : SocketId) :
    (st.getOrCreateWriteQueue key s).2.calls = st.calls ∧
      (st.getOrCreateWriteQueue key s).2.posted = st.posted := by
  unfold getOrCreateWriteQueue
  split
  · split <;> exact ⟨rfl, rfl⟩
  · exact ⟨rfl, rfl⟩

/-- A response that fits a frame is the next payload posted. -/
theorem posted_sendResponse {text : Bytes} (h : st.sendResponse s text = some st')
    (hfits : frameResponse text ≠ []) :
    st'.posted s = st.posted s ++ [⟨s, frameResponse text⟩] := by
  rw [sendResponse, if_neg (by simpa using hfits)] at h
  obtain ⟨st₁, h₁, h₂⟩ := Option.bind_eq_some_iff.mp h
  simp only [step] at h₁
  split at h₁
  · rename_i o _ _
    obtain ⟨hcalls, hposted⟩ :
        (st.getOrCreateWriteQueue o.address s).2.calls = st.calls ∧
          (st.getOrCreateWriteQueue o.address s).2.posted = st.posted :=
      getOrCreateWriteQueue_frame o.address s
    cases h₁
    simp only [step, bind, Option.bind_eq_some_iff, Option.some.injEq, hcalls, hposted,
      List.getElem?_concat_length] at h₂
    obtain ⟨call, rfl, queue, -, rfl⟩ := h₂
    exact Function.update_self _ _ _
  · cases h₁

end Writes

namespace ReadChain

/-- The next entry of the handler is a `close`. -/
def closesNext : ReadChain → Bool
  | .handling (.close :: _) => true
  | _ => false

theorem closesNext_handling {action : ReadAction} {rest : List ReadAction}
    (h : closesNext (.handling (action :: rest)) = true) : action = .close := by
  cases action with
  | close => rfl
  | _ => cases h

end ReadChain

/-! ## The text of the error -/

section

open Nlohmann

theorem isPlain_getCurrentTimestamp (now : LocalTime) :
    ∀ b ∈ getCurrentTimestamp now, isPlain b = true := by
  have hdigit : ∀ n < 256, isDigit (.ofNat n) → isPlain (.ofNat n) = true := by decide +kernel
  have hother : ∀ b ∈ str "- :.", isPlain b = true := by decide +kernel
  intro b hb
  rcases mem_getCurrentTimestamp hb with hb | hb
  · have hplain := hdigit b.toNat b.toNat_lt
    rw [UInt8.ofNat_toNat] at hplain
    exact hplain hb
  · exact hother b hb

def oversizeHeader (currentTimestamp : Bytes) : List (Bytes × Bytes) :=
  [(str "eventType", str "framing"), (str "message", protocol.kErrOversize),
    (str "status", str "error"), (str "timestamp", currentTimestamp),
    (str "version", protocol.kProtocolVersion)]

def oversizeBody : List (Bytes × Bytes) := [(str "errorCode", protocol.kErrOversize)]

theorem responseDocument_oversizeError (currentTimestamp : Bytes) :
    responseDocument currentTimestamp (str "error") NetworkManager.oversizeError =
      .object [
        (str "header", .object ((oversizeHeader currentTimestamp).map fun m => (m.1, .string m.2))),
        (str "body", .object (oversizeBody.map fun m => (m.1, .string m.2)))] := rfl

/-- The error is all plain characters, so `dump` writes it at every moment, in one frame. -/
theorem oversizeError_text (p : NetworkParams) (now : Int) :
    ∃ text, p.errorText NetworkManager.oversizeError now = some text ∧
      text.length ≤ kMaxFrameBytes := by
  have hts := isPlain_getCurrentTimestamp (p.localtime now)
  have hlength := length_getCurrentTimestamp (p.localtime now)
  generalize hmoment : getCurrentTimestamp (p.localtime now) = moment at hts hlength
  have hheader : ∀ m ∈ oversizeHeader moment, ∀ b ∈ m.1 ++ m.2, isPlain b = true := by
    have hfixed : ∀ m ∈ oversizeHeader [], ∀ b ∈ m.1 ++ m.2, isPlain b = true := by decide +kernel
    simp only [oversizeHeader, List.forall_mem_cons, List.forall_mem_append] at hfixed ⊢
    obtain ⟨h₁, h₂, h₃, ⟨h₄, -⟩, h₅, -⟩ := hfixed
    exact ⟨h₁, h₂, h₃, ⟨h₄, hts⟩, h₅, by simp⟩
  have hbody : ∀ m ∈ oversizeBody, ∀ b ∈ m.1 ++ m.2, isPlain b = true := by decide +kernel
  have hkey : ∀ key ∈ [str "header", str "body"], ∀ b ∈ key, isPlain b = true := by decide +kernel
  have hsizes : ∀ s ∈ ["eventType", "framing", "message", "ERR_OVERSIZE", "status", "error",
      "timestamp", "version", "1.0", "errorCode", "header", "body", "\n"], (str s).length ≤ 23 := by
    decide +kernel
  obtain ⟨header, hdumpHeader, hheaderLength⟩ := exists_dump_plain p.to_chars (n := 23) hheader (by
    simp [oversizeHeader, hsizes, hlength, protocol.kErrOversize, protocol.kProtocolVersion])
  obtain ⟨body, hdumpBody, hbodyLength⟩ := exists_dump_plain p.to_chars (n := 23) hbody (by
    simp [oversizeBody, hsizes, protocol.kErrOversize])
  have hmembers : dumpMembers p.to_chars
      [(str "header", .object ((oversizeHeader moment).map fun m => (m.1, .string m.2))),
        (str "body", .object (oversizeBody.map fun m => (m.1, .string m.2)))] =
      some [(str "header", 0x22 :: (str "header" ++ 0x22 :: 0x3A :: header)),
        (str "body", 0x22 :: (str "body" ++ 0x22 :: 0x3A :: body))] := by
    rw [dumpMembers, dump_escaped_plain (hkey _ (by simp)), hdumpHeader, dumpMembers,
      dump_escaped_plain (hkey _ (by simp)), hdumpBody, dumpMembers]
    rfl
  obtain ⟨text, hdump, htextLength⟩ := exists_dump_object hmembers
  refine ⟨text ++ str "\n", ?_, ?_⟩
  · rw [NetworkParams.errorText, hmoment]
    simp only [generateResponseMessage, responseDocument_oversizeError, hdump, Option.map_some]
    rfl
  · have hheaderKey := hsizes "header" (by simp)
    have hbodyKey := hsizes "body" (by simp)
    have hnewline := hsizes "\n" (by simp)
    have hheaderText : header.length ≤ 262 := hheaderLength
    have hbodyText : body.length ≤ 54 := hbodyLength
    simp only [List.flatMap_cons, List.flatMap_nil, List.length_nil, List.length_cons,
      List.length_append] at htextLength
    rw [List.length_append, kMaxFrameBytes]
    generalize (str "header").length = a at *
    generalize (str "body").length = b at *
    generalize (str "\n").length = c at *
    omega

end

namespace Connections

variable {p : NetworkParams} {st st' : Connections} {l : ConnectionLabel} {s : SocketId} {k : Nat}

/-- The oversize error of the connection was the `k`th payload posted on it. -/
def Refused (p : NetworkParams) (st : Connections) (s : SocketId) (k : Nat) : Prop :=
  0 < k ∧ k ≤ (st.writes.posted s).length ∧
    ∃ now text, p.errorText NetworkManager.oversizeError now = some text ∧
      (st.writes.posted s)[k - 1]? = some ⟨s, frameResponse text⟩

theorem Refused.later (h : Refused p st s k)
    (hpre : st.writes.posted s <+: st'.writes.posted s) : Refused p st' s k := by
  obtain ⟨hpos, hle, now, text, htext, hget⟩ := h
  refine ⟨hpos, hle.trans hpre.length_le, now, text, htext, ?_⟩
  rw [← hget]
  exact (List.prefix_iff_getElem?.mp hpre (k - 1) (by omega)).trans
    (List.getElem?_eq_getElem (by omega)).symm

theorem refused_step (hside : st.AcceptSide) (hstep : Step p st l st') :
    st'.refused = st.refused ∨ ∃ s writes now,
      st.writes.sendText s (p.errorText NetworkManager.oversizeError now) = some writes ∧
        st'.writes = writes ∧
        st'.refused = Function.update st.refused s (some (writes.posted s).length) := by
  cases hstep with
  | acceptHandler hh hs ho hrest hrun =>
    cases hside.step_handler hh hs hrest hrun <;> exact .inl rfl
  | readHandler ho hc hrun =>
    rename_i s address remoteAddress now action rest
    cases action with
    | sendResponse err =>
      simp only [runRead, bind, Option.bind_eq_some_iff, Option.some.injEq] at hrun
      obtain ⟨writes, hw, rfl⟩ := hrun
      exact .inl rfl
    | sendOversize =>
      simp only [runRead, bind, Option.bind_eq_some_iff, Option.some.injEq] at hrun
      obtain ⟨writes, hw, rfl⟩ := hrun
      exact .inr ⟨s, writes, now, hw, rfl, rfl⟩
    | handleClientData dataBuffer =>
      cases hrun
      unfold takeData
      dsimp only
      split <;> exact .inl rfl
    | _ =>
      cases hrun
      exact .inl rfl
  | connected hh hrest => exact .inl rfl
  | _ => exact .inl rfl

theorem Sound.grows (h : st.Sound) (hstep : Step p st l st') : st.writes.Grows st'.writes :=
  (later_step h.side h.refs hstep).grows

/-- `refused` counts the payloads up to the oversize error. -/
theorem refused_of_run {steps : List (Connections × ConnectionLabel)}
    (hrun : (connections p).Run steps st) :
    ∀ s k, st.refused s = some k → Refused p st s k := by
  refine (hrun.invariant (I := fun st => st.Sound ∧ ∀ s k, st.refused s = some k →
    Refused p st s k) ⟨.of_run .init, fun s k hk => by cases hk⟩ ?_).2
  rintro st l st' ⟨hsound, h⟩ (hs : st.step p l = some st')
  have hstep := (step_cases hs).2
  refine ⟨hsound.step hstep, fun s k hk => ?_⟩
  rcases refused_step hsound.side hstep with hsame | ⟨s', writes, now, hw, hwrites, hrefused⟩
  · rw [hsame] at hk
    exact (h s k hk).later ((hsound.grows hstep).posted s)
  · rw [hrefused] at hk
    rcases eq_or_ne s s' with rfl | hne
    · -- the error has just been posted
      rw [Function.update_self] at hk
      obtain rfl := Option.some.inj hk
      obtain ⟨text, htext, hfits⟩ := oversizeError_text p now
      rw [htext] at hw
      have hposted := Writes.posted_sendResponse hw (frameResponse_ne_nil hfits)
      rw [← hwrites] at hposted ⊢
      refine ⟨?_, Nat.le_refl _, now, text, htext, ?_⟩
      · simp [hposted]
      · simp [hposted]
    · rw [Function.update_of_ne hne] at hk
      exact (h s k hk).later ((hsound.grows hstep).posted s)

/-- `reapSocket` is about to close a connection that was refused after `k` payloads, and
nothing else has closed it. -/
structure ClosesRefused (st : Connections) (s : SocketId) (k : Nat) : Prop where
  refused : st.refused s = some k
  closing : (st.chain s).closesNext = true
  healthy : st.writes.isOpen s = true

/-- The connection has been closed since the state `before`. -/
structure ClosedSince (before st : Connections) (s : SocketId) : Prop where
  lt : s < st.writes.nextSocket
  closed : st.writes.isOpen s = false
  handed : st.writes.handed s = before.writes.handed s
  posted : before.writes.posted s <+: st.writes.posted s

theorem ClosedSince.grows {before : Connections} (h : ClosedSince before st s)
    (hgrows : st.writes.Grows st'.writes) : ClosedSince before st' s := by
  obtain ⟨hclosed, hhanded⟩ := hgrows.closed s h.lt h.closed
  exact ⟨Nat.lt_of_lt_of_le h.lt hgrows.nextSocket, hclosed, hhanded.trans h.handed,
    h.posted.trans (hgrows.posted s)⟩

theorem ClosesRefused.closedSince (h : st.ClosesRefused s k) (hsound : st.Sound)
    {remoteAddress : Option Bytes} {now : Int}
    (hs : st.step p (.readHandler s remoteAddress now) = some st') : ClosedSince st st' s := by
  have hstep := (step_cases hs).2
  have hgrows := hsound.grows hstep
  have hclosing := h.closing
  cases hstep with
  | readHandler ho hc hrun =>
    rw [hc] at hclosing
    obtain rfl := ReadChain.closesNext_handling hclosing
    cases hrun
    obtain ⟨o, hs, -⟩ := Option.map_eq_some_iff.mp ho
    exact ⟨hsound.reach.inv.socket_lt s o hs, Writes.isOpen_close s, rfl, List.prefix_refl _⟩

theorem closedSince_of_run {steps : List (Connections × ConnectionLabel)}
    (hrun : (connections p).Run steps st) {before : Connections}
    {remoteAddress : Option Bytes} {now : Int}
    (hx : (before, .readHandler s remoteAddress now) ∈ steps) (h : before.ClosesRefused s k) :
    ClosedSince before st s := by
  induction hrun with
  | init => cases hx
  | step hrun hs ih =>
    have hsound := Sound.of_run hrun
    rcases List.mem_cons.mp hx with hx | hx
    · cases hx
      exact h.closedSince hsound hs
    · exact (ih hx).grows (hsound.grows (step_cases hs).2)

/-- The oversize error of the connection and all that was posted before it were handed to
`async_write`. -/
def AnswersOversize (p : NetworkParams) (st : Connections) (s : SocketId) (k : Nat) : Prop :=
  Refused p st s k ∧ (st.writes.posted s).take k <+: st.writes.handed s

/-! ## What the strands have run -/

/-- The step runs the lambda of an `enqueueWrite` on the socket. -/
def runsLambda (s : SocketId) : Connections × ConnectionLabel → Bool
  | (st, .write l) => st.writes.runsLambda s l
  | _ => false

/-- The step runs the completion handler of an `async_write` on the socket. -/
def runsCompletion (s : SocketId) : Connections × ConnectionLabel → Bool
  | (st, .write l) => st.writes.runsCompletion s l
  | _ => false

/-- How many lambdas of `enqueueWrite` the strand of the socket has run. -/
def lambdasRun (steps : List (Connections × ConnectionLabel)) (s : SocketId) : Nat :=
  steps.countP (runsLambda s)

/-- How many completion handlers of `async_write` the strand of the socket has run. -/
def completionsRun (steps : List (Connections × ConnectionLabel)) (s : SocketId) : Nat :=
  steps.countP (runsCompletion s)

theorem lambdasRun_cons (x : Connections × ConnectionLabel)
    (steps : List (Connections × ConnectionLabel)) :
    lambdasRun (x :: steps) = fun s => lambdasRun steps s + (runsLambda s x).toNat := by
  funext s
  rw [lambdasRun, List.countP_cons]
  cases runsLambda s x <;> rfl

theorem completionsRun_cons (x : Connections × ConnectionLabel)
    (steps : List (Connections × ConnectionLabel)) :
    completionsRun (x :: steps) = fun s => completionsRun steps s + (runsCompletion s x).toNat := by
  funext s
  rw [completionsRun, List.countP_cons]
  cases runsCompletion s x <;> rfl

/-- A step that is not a task of a strand is not counted. -/
theorem runs_eq_false (hl : ∀ q, l ≠ .write (.runTask q)) (s : SocketId) :
    runsLambda s (st, l) = false ∧ runsCompletion s (st, l) = false := by
  cases l with
  | write l =>
    have htask : st.writes.taskOf l = none :=
      Writes.taskOf_eq_none fun q hq => hl q (by rw [hq])
    simp [runsLambda, runsCompletion, Writes.runsLambda, Writes.runsCompletion, htask]
  | _ => exact ⟨rfl, rfl⟩

theorem paced_of_run {steps : List (Connections × ConnectionLabel)}
    (hrun : (connections p).Run steps st) :
    st.writes.Paced (lambdasRun steps) (completionsRun steps) := by
  induction hrun with
  | init => exact Writes.paced_init
  | @step steps st st' l hrun hs ih =>
    have hsound := Sound.of_run hrun
    have hstep := (step_cases hs).2
    rw [lambdasRun_cons, completionsRun_cons]
    by_cases hl : ∃ q, l = .write (.runTask q)
    · obtain ⟨q, rfl⟩ := hl
      cases hstep with
      | write ho hw => exact ih.step hsound.reach.inv hw
    · have hquiet : ∀ q, l ≠ .write (.runTask q) := fun q hq => hl ⟨q, hq⟩
      simp only [runs_eq_false hquiet, Bool.toNat_false, Nat.add_zero]
      exact ih.quiet hsound.reach.inv (quiet_step hsound.side hsound.refs hstep hquiet)

end Connections

/-- The answer to an oversize frame, the `k`th payload of its connection, is handed to
`async_write` with all responses before it exactly if the strand had run `k` lambdas and
`k - 1` completion handlers when `reapSocket` came to its `close`. -/
theorem oversize_answered_iff {p : NetworkParams} {st before : Connections}
    {earlier later : List (Connections × ConnectionLabel)} {s : SocketId} {k : Nat}
    {remoteAddress : Option Bytes} {now : Int}
    (hrun : (connections p).Run (later ++ (before, .readHandler s remoteAddress now) :: earlier) st)
    (hcloses : before.ClosesRefused s k) :
    st.AnswersOversize p s k ↔ k ≤ Connections.lambdasRun earlier s ∧
      k ≤ Connections.completionsRun earlier s + 1 := by
  have hearlier : (connections p).Run earlier before := hrun.of_append_cons
  have hsound := Connections.Sound.of_run hearlier
  have hsince := Connections.closedSince_of_run hrun
    (List.mem_append_right _ List.mem_cons_self) hcloses
  have hrefused := Connections.refused_of_run hearlier s k hcloses.refused
  have hle := hrefused.2.1
  have hfirst : (st.writes.posted s).take k = (before.writes.posted s).take k := by
    obtain ⟨since, hposted⟩ := hsince.posted
    rw [← hposted, List.take_append_of_le_length hle]
  rw [← (Connections.paced_of_run hearlier).le_handed_iff hsound.reach.inv hcloses.healthy,
    Connections.AnswersOversize, hfirst, hsince.handed]
  constructor
  · rintro ⟨-, hpre⟩
    have hlen := hpre.length_le
    rw [List.length_take] at hlen
    omega
  · intro hhanded
    refine ⟨hrefused.later hsince.posted, ?_⟩
    obtain ⟨unwritten, horder⟩ := hsound.reach.inv.order s
    rw [← horder, List.take_append_of_le_length hhanded]
    exact List.take_prefix k _

/-- The strand writes a response of another thread, and the error after it, before the
reading thread comes to its `close`. -/
theorem oversize_answered_iff_drained :
    ∃ steps st, (connections smallNetwork).Run steps st ∧ st.writes.isOpen 0 = false ∧
      st.AnswersOversize smallNetwork 0 2 := by
  obtain ⟨earlier, before, hrun, hP⟩ := Machine.exists_run (connections smallNetwork)
    [.startAccept 0 7, .acceptCompleted 0 false, .remoteEndpoint 0 true, .acceptHandler 0,
      .acceptHandler 0, .write (.enqueueWrite 0 [65]), .write (.post 0), .write (.runTask 0),
      .readCompleted 0 (some [0, 0, 0, 255]), .readHandler 0 none 0, .readHandler 0 none 0,
      .write (.complete 0 false), .write (.runTask 0), .write (.runTask 0),
      .readHandler 0 none 0, .readHandler 0 none 0, .readHandler 0 none 0]
    (fun r => r.2.refused 0 = some 2 && (r.2.chain 0).closesNext && r.2.writes.isOpen 0 &&
      Connections.lambdasRun r.1 0 = 2 && Connections.completionsRun r.1 0 = 1 &&
      (r.2.step smallNetwork (.readHandler 0 none 0)).any fun st => !st.writes.isOpen 0)
    (by decide +kernel)
  simp only [Bool.and_eq_true, decide_eq_true_eq, Option.any_eq_true, Bool.not_eq_true'] at hP
  obtain ⟨⟨⟨⟨⟨hrefused, hclosing⟩, hhealthy⟩, hlambdas⟩, hcompletions⟩, hlast⟩ := hP
  obtain ⟨st, hs, hclosed⟩ := hlast
  have hall :
      (connections smallNetwork).Run ([] ++ (before, .readHandler 0 none 0) :: earlier) st :=
    hrun.step hs
  refine ⟨_, st, hall, hclosed, ?_⟩
  refine (oversize_answered_iff hall ⟨hrefused, hclosing, hhealthy⟩).mpr ⟨hlambdas.ge, ?_⟩
  rw [hcompletions]

/-- The reading thread closes the socket before the strand runs the lambda of the answer. -/
theorem oversize_answer_dropped :
    ∃ steps st before, (connections smallNetwork).Run steps st ∧
      (before, .readHandler 0 none 0) ∈ steps ∧ before.ClosesRefused 0 1 ∧
      Connections.lambdasRun steps 0 = 1 ∧ st.writes.handed 0 = [] ∧
      ¬ st.AnswersOversize smallNetwork 0 1 := by
  obtain ⟨steps, st, hrun, hP⟩ := Machine.exists_run (connections smallNetwork)
    [.startAccept 0 7, .acceptCompleted 0 false, .remoteEndpoint 0 true, .acceptHandler 0,
      .acceptHandler 0, .readCompleted 0 (some [0, 0, 0, 255]), .readHandler 0 none 0,
      .readHandler 0 none 0, .readHandler 0 none 0, .readHandler 0 none 0, .readHandler 0 none 0,
      .readHandler 0 none 0, .write (.runTask 0)]
    (fun r => Connections.lambdasRun r.1 0 = 1 && r.2.writes.handed 0 = [] &&
      (r.2.writes.posted 0).length = 1 && r.1.any fun x => x.2 = .readHandler 0 none 0 &&
      x.1.refused 0 = some 1 && (x.1.chain 0).closesNext && x.1.writes.isOpen 0)
    (by decide +kernel)
  simp only [Bool.and_eq_true, List.any_eq_true, decide_eq_true_eq] at hP
  obtain ⟨⟨⟨hlambdas, hhanded⟩, hposted⟩, ⟨before, l⟩, hx, ⟨⟨rfl, hrefused⟩, hclosing⟩,
    hhealthy⟩ := hP
  refine ⟨steps, st, before, hrun, hx, ⟨hrefused, hclosing, hhealthy⟩, hlambdas, hhanded, ?_⟩
  rintro ⟨-, hpre⟩
  have hlen := hpre.length_le
  rw [hhanded, List.length_take, hposted] at hlen
  exact absurd hlen (by decide)

end LoginServer
