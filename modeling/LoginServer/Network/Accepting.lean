import Mathlib.Data.Set.Finite.Lattice
import LoginServer.Network.Connections

/-!
# The server keeps accepting

Between any two steps either one `async_accept` is outstanding and no accept handler is
running, or one handler is and will start the next (`AcceptSide`); a socket that a handler
refers to is alive (`Refs`). The one exit without a `startAccept` is an exception:
`remote_endpoint()` has no `error_code` here, so it throws when the peer has gone by the
time the handler runs (`accepting_iff`).
-/

namespace LoginServer

open Machines

namespace Writes

variable {st st' : Writes}

theorem sameObjects_sendResponse {s : SocketId} {text : Bytes}
    (h : st.sendResponse s text = some st') : SameObjects st st' := by
  unfold sendResponse at h
  split at h
  · cases h
    exact .refl st
  · obtain ⟨st₁, h₁, h₂⟩ := Option.bind_eq_some_iff.mp h
    exact (sameObjects_of_step rfl h₁).trans (sameObjects_of_step rfl h₂)

theorem sameObjects_sendText {s : SocketId} {text : Option Bytes}
    (h : st.sendText s text = some st') : SameObjects st st' := by
  cases text with
  | none =>
    cases h
    exact .refl st
  | some text => exact sameObjects_sendResponse h

/-- A socket object that is referred to from outside is alive. -/
def HeldAlive (st : Writes) : Prop :=
  ∀ s, st.held s = true → (st.addressOf s).isSome = true

theorem heldAlive_step {l : WriteLabel} (hst : st.HeldAlive) (h : st.step l = some st') :
    st'.HeldAlive := by
  intro s hs
  cases step_cases h with
  | accept hfree =>
    rcases eq_or_ne s st.nextSocket with rfl | hne
    · simp [addressOf]
    · simp only [addressOf, Function.update_of_ne hne] at hs ⊢
      exact hst s hs
  | release s' =>
    rcases eq_or_ne s s' with rfl | hne
    · simp at hs
    · simp only [Function.update_of_ne hne] at hs
      exact hst s hs
  | @destroy s' hfree =>
    have hne : s ≠ s' := by
      rintro rfl
      exact absurd hs (by simp [held_of_not_referenced hfree])
    simp only [addressOf, Function.update_of_ne hne]
    exact hst s hs
  | _ =>
    obtain ⟨haddr, hheld, -⟩ := sameObjects_of_step rfl h
    rw [haddr]
    exact hst s (hheld ▸ hs)

/-- There is always room for one more socket object. -/
theorem exists_addressFree (st : Writes) : ∃ address, st.addressFree address = true := by
  obtain ⟨address, hfree⟩ := Infinite.exists_notMem_finset
    ((List.range st.nextSocket).filterMap st.addressOf).toFinset
  refine ⟨address, ?_⟩
  simp only [List.mem_toFinset, List.mem_filterMap, not_exists, not_and] at hfree
  refine List.all_eq_true.mpr fun s hs => ?_
  cases ho : st.sockets s with
  | none => rfl
  | some o =>
    have hne := hfree s hs
    rw [Connections.addressOf_of_sockets ho] at hne
    simpa using fun heq => hne (congrArg some heq)

end Writes

/-- What can be left of an accept handler between two of its entries. -/
inductive AcceptHandler.Underway : AcceptHandler → Prop where
  | connected (s : SocketId) :
    Underway ⟨some s, [.remoteEndpoint, .insertActive, .startReading, .startAccept]⟩
  | counting (s : SocketId) : Underway ⟨some s, [.insertActive, .startReading, .startAccept]⟩
  | admitted (s : SocketId) : Underway ⟨some s, [.startReading, .startAccept]⟩
  | rejected (s : SocketId) : Underway ⟨some s, [.close, .startAccept]⟩
  | rearming (socket : Option SocketId) : Underway ⟨socket, [.startAccept]⟩

namespace Connections

variable {p : NetworkParams} {st st' : Connections} {l : ConnectionLabel}

/-! ## What a read handler leaves alone -/

/-- What is done for the connection `s`, whose socket is at `address`. -/
structure ChainEffect (st st' : Connections) (s : SocketId) (address : Nat) : Prop where
  admitted : st'.admitted = st.admitted
  objects : st.writes.SameObjects st'.writes
  chain : ∀ s', s' ≠ s → st'.chain s' = st.chain s'
  received : ∀ s', s' ≠ s → st'.received s' = st.received s'
  buffers : ∀ a, a ≠ address → st'.socketBuffers a = st.socketBuffers a
  slots : (st'.activeSockets = st.activeSockets ∧ st'.reaped = st.reaped) ∨
    (st'.activeSockets = st.activeSockets.erase address ∧
      st'.reaped = Function.update st.reaped s true)

/-- One entry of a read chain. -/
structure ReadEffect (st st' : Connections) (s : SocketId) (address : Nat) : Prop
    extends ChainEffect st st' s address where
  outstanding : st'.outstanding = st.outstanding
  handlers : st'.handlers = st.handlers
  threw : st'.threw = st.threw

/-- An entry that changes the writes and where the chain is. -/
theorem ReadEffect.of_writes (st : Connections) {writes : Writes}
    {refused : SocketId → Option Nat} (hobjects : st.writes.SameObjects writes) (s : SocketId)
    (c : ReadChain) (address : Nat) :
    st.ReadEffect ({ st with writes := writes, refused := refused }.setChain s c) s address where
  outstanding := rfl
  handlers := rfl
  threw := rfl
  admitted := rfl
  objects := hobjects
  chain := fun _ hne => Function.update_of_ne hne _ _
  received := fun _ _ => rfl
  buffers := fun _ _ => rfl
  slots := .inl ⟨rfl, rfl⟩

/-- An entry that changes the buffer. -/
theorem ReadEffect.of_buffer (st : Connections) (s : SocketId) (address : Nat)
    (received : Bytes) (entry : Option Bytes) (c : ReadChain) :
    st.ReadEffect
      (({ st with received := Function.update st.received s received }.setBuffer address
        entry).setChain s c) s address where
  outstanding := rfl
  handlers := rfl
  threw := rfl
  admitted := rfl
  objects := .refl _
  chain := fun _ hne => Function.update_of_ne hne _ _
  received := fun _ hne => Function.update_of_ne hne _ _
  buffers := fun _ hne => Function.update_of_ne hne _ _
  slots := .inl ⟨rfl, rfl⟩

theorem setBuffer_eq (st : Connections) (s : SocketId) (address : Nat) (entry : Option Bytes) :
    st.setBuffer address entry =
      { st with received := Function.update st.received s (st.received s) }.setBuffer address
        entry := by
  rw [Function.update_eq_self]

theorem runRead_effect {s : SocketId} {address : Nat} {remoteAddress : Option Bytes}
    {now : Int} {rest : List ReadAction} {action : ReadAction}
    (h : st.runRead p s address remoteAddress now rest action = some st') :
    st.ReadEffect st' s address := by
  cases action with
  | handleClientData dataBuffer =>
    cases h
    unfold takeData
    dsimp only
    split <;> exact .of_buffer st s address _ _ _
  | processMessage message =>
    cases h
    exact .of_writes st (.refl _) s _ address
  | sendResponse err =>
    simp only [runRead, bind, Option.bind_eq_some_iff, Option.some.injEq] at h
    obtain ⟨writes, hw, rfl⟩ := h
    exact .of_writes st (Writes.sameObjects_sendText hw) s _ address
  | sendOversize =>
    simp only [runRead, bind, Option.bind_eq_some_iff, Option.some.injEq] at h
    obtain ⟨writes, hw, rfl⟩ := h
    exact .of_writes st (Writes.sameObjects_sendText hw) s _ address
  | storeBuffer accumulatedData =>
    cases h
    rw [setBuffer_eq st s]
    exact .of_buffer st s address _ _ _
  | eraseBuffer =>
    cases h
    rw [setBuffer_eq st s]
    exact .of_buffer st s address _ _ _
  | eraseSlot =>
    cases h
    have hsame : st.ReadEffect (st.setChain s (.handler rest)) s address :=
      .of_writes st (.refl st.writes) s _ address
    exact { hsame with slots := .inr ⟨rfl, rfl⟩ }
  | removeWriteQueue =>
    cases h
    exact .of_writes st (Writes.sameObjects_removeWriteQueue _ _) s _ address
  | close =>
    cases h
    exact .of_writes st (Writes.sameObjects_close _ s) s _ address
  | startReading =>
    cases h
    exact .of_writes st (.refl _) s _ address

/-! ## One outstanding accept or one handler -/

inductive AcceptSide (st : Connections) : Prop where
  | waiting (address : Nat) (ho : st.outstanding = [address]) (hh : st.handlers = [])
  | running (h : AcceptHandler) (ho : st.outstanding = []) (hh : st.handlers = [h])
      (hu : h.Underway)

namespace AcceptSide

theorem congr (h : st.AcceptSide) (hout : st'.outstanding = st.outstanding)
    (hhandlers : st'.handlers = st.handlers) : st'.AcceptSide := by
  cases h with
  | waiting address ho hh => exact .waiting address (hout.trans ho) (hhandlers.trans hh)
  | running h ho hh hu => exact .running h (hout.trans ho) (hhandlers.trans hh) hu

theorem of_outstanding (h : st.AcceptSide) {i address : Nat}
    (ha : st.outstanding[i]? = some address) :
    i = 0 ∧ st.outstanding = [address] ∧ st.handlers = [] := by
  cases h with
  | waiting address' ho hh =>
    rw [ho] at ha
    cases i with
    | zero =>
      cases ha
      exact ⟨rfl, ho, hh⟩
    | succ i => cases ha
  | running h ho hh hu =>
    rw [ho] at ha
    cases ha

theorem of_handler (h : st.AcceptSide) {i : Nat} {h' : AcceptHandler}
    (ha : st.handlers[i]? = some h') :
    i = 0 ∧ st.handlers = [h'] ∧ st.outstanding = [] ∧ h'.Underway := by
  cases h with
  | waiting address ho hh =>
    rw [hh] at ha
    cases ha
  | running h ho hh hu =>
    rw [hh] at ha
    cases i with
    | zero =>
      cases ha
      exact ⟨rfl, hh, ho, hu⟩
    | succ i => cases ha

end AcceptSide

theorem setHandler_of_single {h h' : AcceptHandler} (hh : st.handlers = [h])
    (hrest : h'.rest ≠ []) : st.setHandler 0 h' = { st with handlers := [h'] } := by
  rw [setHandler, hh]
  cases hr : h'.rest with
  | nil => exact absurd hr hrest
  | cons action rest => simp

theorem setHandler_of_return {h h' : AcceptHandler} (hh : st.handlers = [h])
    (hrest : h'.rest = []) : st.setHandler 0 h' = { st with handlers := [] } := by
  rw [setHandler, hh, hrest]
  rfl

/-- A handler that finds its peer still connected goes on with a new connection. -/
theorem AcceptSide.of_connected (hside : st.AcceptSide) {i : Nat} {h : AcceptHandler}
    {rest : List AcceptAction} (hh : st.handlers[i]? = some h)
    (hrest : h.rest = .remoteEndpoint :: rest) : st.outstanding = [] ∧ ∃ s,
      st.handlers = [⟨some s, [.remoteEndpoint, .insertActive, .startReading, .startAccept]⟩] ∧
      st.setHandler i { h with rest := rest } =
        { st with handlers := [⟨some s, [.insertActive, .startReading, .startAccept]⟩] } := by
  obtain ⟨rfl, hone, hout, hu⟩ := hside.of_handler hh
  cases hu with
  | connected s =>
    cases hrest
    exact ⟨hout, s, hone, setHandler_of_single hone (by simp)⟩
  | _ => cases hrest

/-- A handler that rearms the acceptor has nothing left to do. -/
theorem AcceptSide.of_startAccept (hside : st.AcceptSide) {i : Nat} {h : AcceptHandler}
    {rest : List AcceptAction} (hh : st.handlers[i]? = some h)
    (hrest : h.rest = .startAccept :: rest) : st.outstanding = [] ∧
      st.setHandler i { h with rest := rest } = { st with handlers := [] } := by
  obtain ⟨rfl, hone, hout, hu⟩ := hside.of_handler hh
  cases hu with
  | rearming socket =>
    cases hrest
    exact ⟨hout, setHandler_of_return hone rfl⟩
  | _ => cases hrest

/-- The entries of an accept handler that are steps of their own. -/
inductive AcceptStep (p : NetworkParams) (st : Connections) (s : SocketId) (address : Nat) :
    Connections → Prop where
  | full (hh : st.handlers = [⟨some s, [.insertActive, .startReading, .startAccept]⟩])
      (hfull : p.maxClients ≤ st.activeSockets.length) :
    AcceptStep p st s address { st with handlers := [⟨some s, [.close, .startAccept]⟩] }
  | admitted (hh : st.handlers = [⟨some s, [.insertActive, .startReading, .startAccept]⟩])
      (hroom : st.activeSockets.length < p.maxClients) :
    AcceptStep p st s address
      { st with
        handlers := [⟨some s, [.startReading, .startAccept]⟩]
        activeSockets := st.activeSockets.insert address
        admitted := Function.update st.admitted s true }
  | closed (hh : st.handlers = [⟨some s, [.close, .startAccept]⟩]) :
    AcceptStep p st s address
      { st with
        writes := st.writes.close s
        handlers := [⟨some s, [.startAccept]⟩]
        chain := Function.update st.chain s .ended }
  | reading (hh : st.handlers = [⟨some s, [.startReading, .startAccept]⟩]) :
    AcceptStep p st s address
      { st with
        handlers := [⟨some s, [.startAccept]⟩]
        chain := Function.update st.chain s (.reading (st.writes.isOpen s)) }

theorem AcceptSide.step_handler (hside : st.AcceptSide) {i : Nat} {h : AcceptHandler}
    {s : SocketId} {address : Nat} {action : AcceptAction} {rest : List AcceptAction}
    (hh : st.handlers[i]? = some h) (hs : h.socket = some s) (hrest : h.rest = action :: rest)
    (hrun : st.runAccept p i h s address rest action = some st') :
    AcceptStep p st s address st' := by
  obtain ⟨rfl, hone, -, hu⟩ := hside.of_handler hh
  cases hu with
  | connected s' =>
    cases hrest
    cases hrun
  | counting s' =>
    cases hrest
    cases hs
    simp only [runAccept] at hrun
    split at hrun
    · rename_i hfull
      cases hrun
      rw [setHandler_of_single hone (by simp [AcceptHandler.rejecting])]
      exact .full hone hfull
    · rename_i hroom
      cases hrun
      rw [setHandler_of_single hone (by simp)]
      exact .admitted hone (by omega)
  | admitted s' =>
    cases hrest
    cases hs
    cases hrun
    have hgo : (st.startReading s).handlers =
        [⟨some s, [.startReading, .startAccept]⟩] := hone
    rw [setHandler_of_single hgo (by simp)]
    exact .reading hone
  | rejected s' =>
    cases hrest
    cases hs
    cases hrun
    have hgo : (setChain { st with writes := st.writes.close s } s .ended).handlers =
        [⟨some s, [.close, .startAccept]⟩] := hone
    rw [setHandler_of_single hgo (by simp)]
    exact .closed hone
  | rearming socket =>
    cases hrest
    cases hrun

theorem AcceptSide.step (hside : st.AcceptSide) (hstep : Step p st l st') : st'.AcceptSide := by
  cases hstep with
  | write hl hw => exact hside.congr rfl rfl
  | acceptError ha =>
    obtain ⟨rfl, hout, hnone⟩ := hside.of_outstanding ha
    exact .running .onError (by simp [hout]) (by simp [hnone]) (.rearming none)
  | acceptSuccess ha hw =>
    obtain ⟨rfl, hout, hnone⟩ := hside.of_outstanding ha
    exact .running (.onSuccess st.writes.nextSocket) (by simp [hout, setChain])
      (by simp [hnone, setChain]) (.connected _)
  | connected hh hrest =>
    obtain ⟨hout, s, -, hset⟩ := hside.of_connected hh hrest
    rw [hset]
    exact .running _ hout rfl (.counting s)
  | threw hh hrest => exact hside.congr rfl rfl
  | acceptHandler hh hs ho hrest hrun =>
    obtain ⟨-, -, hout, -⟩ := hside.of_handler hh
    cases hside.step_handler hh hs hrest hrun with
    | full hone hfull => exact .running _ hout rfl (.rejected _)
    | admitted hone hroom => exact .running _ hout rfl (.admitted _)
    | closed hone => exact .running _ hout rfl (.rearming _)
    | reading hone => exact .running _ hout rfl (.rearming _)
  | startAccept hh hrest hfree hnew =>
    obtain ⟨hout, hset⟩ := hside.of_startAccept hh hrest
    rw [hset]
    exact .waiting _ (by rw [hout]; rfl) rfl
  | readData hc => exact hside.congr rfl rfl
  | readError hc => exact hside.congr rfl rfl
  | readHandler ho hc hrun =>
    have heffect := runRead_effect hrun
    exact hside.congr heffect.outstanding heffect.handlers

/-! ## A socket in use is alive -/

/-- The sockets that a handler or a read chain refers to are held, and so alive. -/
structure Refs (st : Connections) : Prop where
  held : ∀ s, st.inHandler s = true ∨ (st.chain s).isEnded = false → st.writes.held s = true
  alive : st.writes.HeldAlive

theorem inHandler_of_mem {h : AcceptHandler} {s : SocketId} (hmem : h ∈ st.handlers)
    (hs : h.socket = some s) : st.inHandler s = true :=
  List.any_eq_true.mpr ⟨h, hmem, by simpa using hs⟩

theorem inHandler_of_single {h : AcceptHandler} (hh : st.handlers = [h]) (s : SocketId) :
    st.inHandler s = decide (h.socket = some s) := by
  simp [inHandler, hh]

theorem Refs.shrink (hrefs : st.Refs) (hhandler : ∀ s, st'.inHandler s = true →
      st.inHandler s = true)
    (hchain : ∀ s, (st'.chain s).isEnded = false →
      st.inHandler s = true ∨ (st.chain s).isEnded = false)
    (hobjects : st.writes.SameObjects st'.writes) : st'.Refs := by
  refine ⟨?_, ?_⟩
  · rintro s (hs | hs)
    · rw [hobjects.held]
      exact hrefs.held s (.inl (hhandler s hs))
    · rw [hobjects.held]
      exact hrefs.held s (hchain s hs)
  · intro s hs
    rw [hobjects.held] at hs
    rw [hobjects.addressOf]
    exact hrefs.alive s hs

/-- A step of the read chain of a socket. -/
theorem Refs.read (hrefs : st.Refs) {s : SocketId} {address : Nat}
    (hs : (st.chain s).isEnded = false) (heffect : st.ReadEffect st' s address) :
    st'.Refs := by
  refine hrefs.shrink ?_ ?_ heffect.objects
  · intro s' hs'
    rwa [inHandler, heffect.handlers] at hs'
  · intro s' hs'
    rcases eq_or_ne s' s with rfl | hne
    · exact .inr hs
    · rw [heffect.chain s' hne] at hs'
      exact .inr hs'

theorem Refs.write (hrefs : st.Refs) {l : WriteLabel} {writes : Writes}
    (hl : st.otherThread l = true) (hw : st.writes.step l = some writes) :
    Refs { st with writes := writes } := by
  refine ⟨?_, Writes.heldAlive_step hrefs.alive hw⟩
  intro s hs
  have hheld := hrefs.held s hs
  cases Writes.step_cases hw with
  | accept => cases hl
  | release s' =>
    simp only [otherThread, Bool.and_eq_true, Bool.not_eq_true'] at hl
    have hne : s ≠ s' := by
      rintro rfl
      change st.inHandler s = true ∨ (st.chain s).isEnded = false at hs
      simp [hl.1, hl.2] at hs
    simpa [Function.update_of_ne hne] using hheld
  | destroy => exact hheld
  | _ =>
    rw [(Writes.sameObjects_of_step rfl hw).held]
    exact hheld

theorem Refs.step (hrefs : st.Refs) (hside : st.AcceptSide) (hstep : Step p st l st') :
    st'.Refs := by
  cases hstep with
  | write hl hw => exact hrefs.write hl hw
  | acceptError ha =>
    refine hrefs.shrink ?_ (fun s => .inr) (.refl _)
    intro s hs
    simpa [inHandler, AcceptHandler.onError] using hs
  | acceptSuccess ha hw =>
    rename_i writes
    refine ⟨?_, Writes.heldAlive_step hrefs.alive hw⟩
    cases Writes.step_cases hw
    intro s hs
    rcases eq_or_ne s st.writes.nextSocket with rfl | hne
    · simp [setChain]
    · have hold : st.inHandler s = true ∨ (st.chain s).isEnded = false := by
        simpa [inHandler, setChain, AcceptHandler.onSuccess, hne, hne.symm] using hs
      simpa [setChain, Function.update_of_ne hne] using hrefs.held s hold
  | connected hh hrest =>
    obtain ⟨-, s, hone, hset⟩ := hside.of_connected hh hrest
    rw [hset]
    refine hrefs.shrink ?_ (fun s => .inr) (.refl _)
    intro s' hs'
    rw [inHandler_of_single hone]
    simpa [inHandler] using hs'
  | threw hh hrest => exact hrefs.shrink (fun s => id) (fun s => .inr) (.refl _)
  | acceptHandler hh hs ho hrest hrun =>
    rename_i s address action rest
    have hin : st.inHandler s = true := inHandler_of_mem (List.mem_of_getElem? hh) hs
    have hsame : ∀ {actions : List AcceptAction} {st₁ : Connections},
        st₁.handlers = [⟨some s, actions⟩] → ∀ s', st₁.inHandler s' = true →
        st.inHandler s' = true := by
      intro actions st₁ hone s' hs'
      rw [inHandler_of_single hone, decide_eq_true_eq] at hs'
      cases hs'
      exact hin
    have hchain : ∀ {c : ReadChain} (s' : SocketId),
        (Function.update st.chain s c s').isEnded = false →
        st.inHandler s' = true ∨ (st.chain s').isEnded = false := by
      intro c s' hs'
      rcases eq_or_ne s' s with rfl | hne
      · exact .inl hin
      · rw [Function.update_of_ne hne] at hs'
        exact .inr hs'
    cases hside.step_handler hh hs hrest hrun with
    | full hone hfull => exact hrefs.shrink (hsame rfl) (fun s => .inr) (.refl _)
    | admitted hone hroom => exact hrefs.shrink (hsame rfl) (fun s => .inr) (.refl _)
    | closed hone => exact hrefs.shrink (hsame rfl) hchain (Writes.sameObjects_close _ _)
    | reading hone => exact hrefs.shrink (hsame rfl) hchain (.refl _)
  | startAccept hh hrest hfree hnew =>
    obtain ⟨-, hset⟩ := hside.of_startAccept hh hrest
    rw [hset]
    refine hrefs.shrink ?_ (fun s => .inr) (.refl _)
    intro s' hs'
    cases hs'
  | readData hc => exact hrefs.read (by rw [hc]; rfl) (.of_writes st (.refl _) _ _ 0)
  | readError hc => exact hrefs.read (by rw [hc]; rfl) (.of_writes st (.refl _) _ _ 0)
  | readHandler ho hc hrun => exact hrefs.read (by rw [hc]; rfl) (runRead_effect hrun)

/-! ## The writes are those of `Writes` -/

theorem quiet_sendResponse {writes writes' : Writes} {s : SocketId} {text : Bytes}
    (h : writes.sendResponse s text = some writes') : writes.Quiet writes' := by
  unfold Writes.sendResponse at h
  split at h
  · cases h
    exact .refl writes
  · obtain ⟨writes₁, h₁, h₂⟩ := Option.bind_eq_some_iff.mp h
    exact (Writes.quiet_of_step (by simp) h₁).trans (Writes.quiet_of_step (by simp) h₂)

theorem quiet_sendText {writes writes' : Writes} {s : SocketId} {text : Option Bytes}
    (h : writes.sendText s text = some writes') : writes.Quiet writes' := by
  cases text with
  | none =>
    cases h
    exact .refl writes
  | some text => exact quiet_sendResponse h

/-- Only the strands run tasks. -/
theorem quiet_step (hside : st.AcceptSide) (hrefs : st.Refs) (hstep : Step p st l st')
    (hl : ∀ q, l ≠ .write (.runTask q)) : st.writes.Quiet st'.writes := by
  have hrefl := Writes.Quiet.refl st.writes
  cases hstep with
  | write ho hw =>
    refine Writes.quiet_of_step (fun q hq => ?_) hw
    exact hl q (by rw [hq])
  | acceptSuccess ha hw => exact Writes.quiet_of_step (by simp) hw
  | acceptHandler hh hs ho hrest hrun =>
    rename_i s address action rest
    cases hside.step_handler hh hs hrest hrun with
    | closed hone => exact Writes.quiet_of_step (l := .close s) (by simp) rfl
    | _ => exact hrefl
  | readHandler ho hc hrun =>
    rename_i s address remoteAddress now action rest
    cases action with
    | sendResponse err =>
      simp only [runRead, bind, Option.bind_eq_some_iff, Option.some.injEq] at hrun
      obtain ⟨writes, hw, rfl⟩ := hrun
      exact quiet_sendText hw
    | sendOversize =>
      simp only [runRead, bind, Option.bind_eq_some_iff, Option.some.injEq] at hrun
      obtain ⟨writes, hw, rfl⟩ := hrun
      exact quiet_sendText hw
    | removeWriteQueue =>
      cases hrun
      have hheld : st.writes.held s = true := hrefs.held s (.inr (by rw [hc]; rfl))
      obtain ⟨o, hs, rfl⟩ := Option.map_eq_some_iff.mp ho
      refine Writes.quiet_of_step (l := .removeWriteQueue s) (by simp) ?_
      rw [Writes.step, hheld, hs]
      rfl
    | close =>
      cases hrun
      exact Writes.quiet_of_step (l := .close s) (by simp) rfl
    | handleClientData dataBuffer =>
      cases hrun
      unfold takeData
      dsimp only
      split <;> exact hrefl
    | _ =>
      cases hrun
      exact hrefl
  | _ => exact hrefl

theorem later_step (hside : st.AcceptSide) (hrefs : st.Refs) (hstep : Step p st l st') :
    st.writes.Later st'.writes := by
  by_cases hl : ∃ q, l = .write (.runTask q)
  · obtain ⟨q, rfl⟩ := hl
    cases hstep with
    | write ho hw => exact Writes.later_of_step hw
  · exact (quiet_step hside hrefs hstep fun q hq => hl ⟨q, hq⟩).later

/-! ## Runs -/

/-- What every state of a run satisfies. -/
structure Sound (st : Connections) : Prop where
  side : st.AcceptSide
  refs : st.Refs
  reach : st.writes.Reach

theorem Sound.step (h : st.Sound) (hstep : Step p st l st') : st'.Sound :=
  ⟨h.side.step hstep, h.refs.step h.side hstep, h.reach.later (later_step h.side h.refs hstep)⟩

theorem Sound.of_run {steps : List (Connections × ConnectionLabel)}
    (hrun : (connections p).Run steps st) : st.Sound := by
  refine hrun.invariant (I := Sound) ⟨.running _ rfl rfl (.rearming none), ?_, .init⟩ ?_
  · refine ⟨?_, fun s hs => by cases hs⟩
    rintro s (hs | hs) <;> cases hs
  · intro st l st' h (hs : st.step p l = some st')
    exact h.step (step_cases hs).2

/-! ## The handlers come to their end -/

/-- How much the accept handlers have left to do. -/
def work (st : Connections) : Nat := (st.handlers.flatMap AcceptHandler.rest).length

end Connections

/-- A step of a running accept handler. -/
def ConnectionLabel.ofHandler : ConnectionLabel → Bool
  | .remoteEndpoint _ _ => true
  | .acceptHandler _ => true
  | .startAccept _ _ => true
  | _ => false

/-- A handler calls `remote_endpoint()` when its peer has gone. -/
def ConnectionLabel.peerGone : ConnectionLabel → Bool
  | .remoteEndpoint _ connected => !connected
  | _ => false

namespace Connections

variable {p : NetworkParams} {st st' : Connections} {l : ConnectionLabel}

theorem work_of_single {h : AcceptHandler} (hh : st.handlers = [h]) :
    st.work = h.rest.length := by
  simp [work, hh]

theorem AcceptSide.work_le (hside : st.AcceptSide) : st.work ≤ 4 := by
  cases hside with
  | waiting address ho hh => simp [work, hh]
  | running h ho hh hu =>
    rw [work_of_single hh]
    cases hu <;> simp

theorem AcceptSide.one (hside : st.AcceptSide) :
    st.outstanding.length + st.handlers.length = 1 := by
  cases hside with
  | waiting address ho hh => rw [ho, hh]; rfl
  | running h ho hh hu => rw [ho, hh]; rfl

/-- A step of the handler leaves it less to do. -/
theorem AcceptSide.work_lt (hside : st.AcceptSide) (hstep : Step p st l st')
    (hl : l.ofHandler = true) (hthrew : st'.threw = false) : st'.work < st.work := by
  cases hstep with
  | connected hh hrest =>
    obtain ⟨rfl, hone, -, hu⟩ := hside.of_handler hh
    cases hu with
    | connected s =>
      cases hrest
      rw [setHandler_of_single hone (by simp), work_of_single hone]
      simp [work]
    | _ => cases hrest
  | threw hh hrest => cases hthrew
  | acceptHandler hh hs ho hrest hrun =>
    cases hside.step_handler hh hs hrest hrun with
    | full hone hfull =>
      rw [work_of_single hone]
      simp [work]
    | admitted hone hroom =>
      rw [work_of_single hone]
      simp [work]
    | closed hone =>
      rw [work_of_single hone]
      simp [work]
    | reading hone =>
      rw [work_of_single hone]
      simp [work]
  | startAccept hh hrest hfree hnew =>
    obtain ⟨rfl, hone, -, hu⟩ := hside.of_handler hh
    cases hu with
    | rearming socket =>
      cases hrest
      rw [setHandler_of_return hone rfl, work_of_single hone]
      simp [work]
    | _ => cases hrest
  | _ => cases hl

/-- Steps of others do not touch a running handler. -/
theorem AcceptSide.handlers_eq (hside : st.AcceptSide) (hstep : Step p st l st')
    (hl : l.ofHandler = false) : st.handlers = [] ∨ st'.handlers = st.handlers := by
  cases hstep with
  | acceptError ha => exact .inl (hside.of_outstanding ha).2.2
  | acceptSuccess ha hw => exact .inl (hside.of_outstanding ha).2.2
  | readHandler ho hc hrun => exact .inr (runRead_effect hrun).handlers
  | write hl hw => exact .inr rfl
  | readData hc => exact .inr rfl
  | readError hc => exact .inr rfl
  | _ => cases hl

theorem runAccept_sockets (hrefs : st.Refs) {h : AcceptHandler} {s : SocketId}
    (hmem : h ∈ st.handlers) (hs : h.socket = some s) :
    ∃ o, st.writes.sockets s = some o := by
  have halive := hrefs.alive s (hrefs.held s (.inl (inHandler_of_mem hmem hs)))
  rw [Writes.addressOf, Option.isSome_map] at halive
  exact Option.isSome_iff_exists.mp halive

theorem step_acceptHandler {i : Nat} {h : AcceptHandler} {s : SocketId} {o : SocketObject}
    {action : AcceptAction} {rest : List AcceptAction} (hthrew : st.threw = false)
    (hh : st.handlers[i]? = some h) (hs : h.socket = some s)
    (ho : st.writes.sockets s = some o) (hrest : h.rest = action :: rest) :
    st.step p (.acceptHandler i) = st.runAccept p i h s o.address rest action := by
  simp [step, hthrew, hh, hs, ho, hrest]

/-- A running handler is never stuck. -/
theorem AcceptSide.exists_step (hside : st.AcceptSide) (hrefs : st.Refs)
    (hthrew : st.threw = false) (hrunning : st.handlers ≠ []) :
    ∃ l st', l.ofHandler = true ∧ st.step p l = some st' ∧ st'.threw = false := by
  cases hside with
  | waiting address ho hh => exact absurd hh hrunning
  | running h ho hh hu =>
    have hget : st.handlers[0]? = some h := by rw [hh]; rfl
    have hmem : h ∈ st.handlers := List.mem_of_getElem? hget
    cases hu with
    | connected s =>
      refine ⟨.remoteEndpoint 0 true,
        st.setHandler 0 ⟨some s, [.insertActive, .startReading, .startAccept]⟩, rfl, ?_, hthrew⟩
      simp only [Connections.step, hthrew, hget, bind, Option.bind_some, Bool.false_eq_true,
        if_false, if_true]
    | counting s =>
      obtain ⟨o, hs⟩ := runAccept_sockets hrefs hmem rfl
      by_cases hfull : st.activeSockets.length ≥ p.maxClients
      · exact ⟨.acceptHandler 0, _, rfl,
          (step_acceptHandler hthrew hget rfl hs rfl).trans (if_pos hfull), hthrew⟩
      · exact ⟨.acceptHandler 0, _, rfl,
          (step_acceptHandler hthrew hget rfl hs rfl).trans (if_neg hfull), hthrew⟩
    | admitted s =>
      obtain ⟨o, hs⟩ := runAccept_sockets hrefs hmem rfl
      exact ⟨.acceptHandler 0, _, rfl, step_acceptHandler hthrew hget rfl hs rfl, hthrew⟩
    | rejected s =>
      obtain ⟨o, hs⟩ := runAccept_sockets hrefs hmem rfl
      exact ⟨.acceptHandler 0, _, rfl, step_acceptHandler hthrew hget rfl hs rfl, hthrew⟩
    | rearming socket =>
      obtain ⟨address, hfree⟩ := st.writes.exists_addressFree
      refine ⟨.startAccept 0 address,
        { st.setHandler 0 ⟨socket, []⟩ with outstanding := st.outstanding ++ [address] }, rfl, ?_,
        hthrew⟩
      simp only [Connections.step, hthrew, hget, hfree, ho, bind, Option.bind_some,
        Bool.false_eq_true, if_false, List.contains_nil, Bool.not_false, Bool.and_self, if_true]

/-- Steps of the handlers alone, one after the other. -/
def handlersRun (p : NetworkParams) (st : Connections) (labels : List ConnectionLabel) :
    Option Connections :=
  labels.foldlM (fun st l => if l.ofHandler then st.step p l else none) st

/-- Left to itself a running handler comes to its end, with one `async_accept` outstanding. -/
theorem exists_rearmed (n : Nat) (st : Connections) (hside : st.AcceptSide) (hrefs : st.Refs)
    (hthrew : st.threw = false) (hwork : st.work ≤ n) :
    ∃ labels st', labels.length ≤ n ∧ st.handlersRun p labels = some st' ∧
      st'.handlers = [] ∧ st'.outstanding.length = 1 := by
  by_cases hrunning : st.handlers = []
  · refine ⟨[], st, Nat.zero_le n, rfl, hrunning, ?_⟩
    have hone := hside.one
    rw [hrunning] at hone
    exact hone
  · obtain ⟨l, st₁, hl, hs, hthrew₁⟩ := hside.exists_step (p := p) hrefs hthrew hrunning
    have hstep := (step_cases hs).2
    have hlt := hside.work_lt hstep hl hthrew₁
    cases n with
    | zero => omega
    | succ n =>
      have hwork₁ : st₁.work ≤ n := by omega
      obtain ⟨labels, st', hlen, hrun, hend⟩ := exists_rearmed n st₁ (hside.step hstep)
        (hrefs.step hside hstep) hthrew₁ hwork₁
      refine ⟨l :: labels, st', Nat.succ_le_succ hlen, ?_, hend⟩
      rw [handlersRun, List.foldlM_cons, if_pos hl, hs]
      exact hrun

/-! ## What stops the server from accepting -/

/-- No exception has left a handler. One `async_accept` is outstanding unless a handler is
running, which has less to do after each of its steps, is not touched by the steps of
others, and alone comes to its end with one outstanding. -/
structure Accepting (p : NetworkParams) (st : Connections) : Prop where
  running : st.threw = false
  one : st.outstanding.length + st.handlers.length = 1
  terminates : st.work ≤ 4 ∧ ∀ l st', st.step p l = some st' → st'.threw = false →
    if l.ofHandler then st'.work < st.work
    else st.handlers = [] ∨ st'.handlers = st.handlers
  rearms : ∃ labels st', labels.length ≤ 4 ∧ st.handlersRun p labels = some st' ∧
    st'.handlers = [] ∧ st'.outstanding.length = 1

theorem accepting_of_run {steps : List (Connections × ConnectionLabel)}
    (hrun : (connections p).Run steps st) (hthrew : st.threw = false) : st.Accepting p := by
  obtain ⟨hside, hrefs, -⟩ := Sound.of_run hrun
  refine ⟨hthrew, hside.one, ⟨hside.work_le, ?_⟩,
    exists_rearmed 4 st hside hrefs hthrew hside.work_le⟩
  intro l st' hs hthrew'
  have hstep := (step_cases hs).2
  split
  · rename_i hl
    exact hside.work_lt hstep hl hthrew'
  · rename_i hl
    exact hside.handlers_eq hstep (Bool.eq_false_iff.mpr hl)

/-- The exception is the one of `remote_endpoint()`, and nothing runs after it. -/
theorem threw_iff {steps : List (Connections × ConnectionLabel)}
    (hrun : (connections p).Run steps st) :
    st.threw = false ↔ ∀ x ∈ steps, x.2.peerGone = false := by
  induction hrun with
  | init => exact iff_of_true rfl (by simp)
  | @step steps st st' l hrun hs ih =>
    obtain ⟨hthrew, hstep⟩ := step_cases hs
    rw [List.forall_mem_cons, and_iff_left (ih.mp hthrew)]
    cases hstep with
    | threw hh hrest => exact iff_of_false (by simp) (by simp [ConnectionLabel.peerGone])
    | readHandler ho hc hrun =>
      exact iff_of_true ((runRead_effect hrun).threw.trans hthrew) rfl
    | acceptHandler hh hsocket ho hrest hstep =>
      refine iff_of_true ?_ rfl
      cases (Sound.of_run hrun).side.step_handler hh hsocket hrest hstep <;> exact hthrew
    | connected hh hrest => exact iff_of_true hthrew rfl
    | _ => exact iff_of_true hthrew rfl

end Connections

/-- The server is accepting after a run exactly if at every accepted connection the peer
was still there when the handler called `remote_endpoint()`. -/
theorem accepting_iff {p : NetworkParams} {st : Connections}
    {steps : List (Connections × ConnectionLabel)} (hrun : (connections p).Run steps st) :
    st.Accepting p ↔ ∀ x ∈ steps, x.2.peerGone = false := by
  rw [← Connections.threw_iff hrun]
  exact ⟨fun h => h.running, Connections.accepting_of_run hrun⟩

/-- An error, a connection that is admitted and one for which there is no slot. -/
theorem accepting_iff_rejected :
    ∃ steps st, (connections smallNetwork).Run steps st ∧ st.activeSockets = [7] ∧
      st.outstanding = [9] ∧ st.Accepting smallNetwork := by
  obtain ⟨steps, st, hrun, hP⟩ := Machine.exists_run (connections smallNetwork)
    [.startAccept 0 7, .acceptCompleted 0 true, .startAccept 0 7, .acceptCompleted 0 false,
      .remoteEndpoint 0 true, .acceptHandler 0, .acceptHandler 0, .startAccept 0 8,
      .acceptCompleted 0 false, .remoteEndpoint 0 true, .acceptHandler 0, .acceptHandler 0,
      .startAccept 0 9]
    (fun r => r.2.activeSockets = [7] && r.2.outstanding = [9] &&
      r.1.all fun x => !x.2.peerGone) (by decide)
  simp only [Bool.and_eq_true, decide_eq_true_eq, List.all_eq_true, Bool.not_eq_true'] at hP
  obtain ⟨⟨hactive, hout⟩, hpeers⟩ := hP
  exact ⟨steps, st, hrun, hactive, hout, (accepting_iff hrun).mpr hpeers⟩

/-- A client that resets its connection between the accept and the handler: the exception
leaves `run()`, and no `async_accept` is outstanding any more. -/
theorem reset_stops_accepting :
    ∃ steps st, (connections smallNetwork).Run steps st ∧ st.threw = true ∧
      st.outstanding = [] ∧ ¬ st.Accepting smallNetwork := by
  obtain ⟨steps, st, hrun, hP⟩ := Machine.exists_run (connections smallNetwork)
    [.startAccept 0 7, .acceptCompleted 0 false, .remoteEndpoint 0 false]
    (fun r => r.2.threw && r.2.outstanding = []) (by decide)
  rw [Bool.and_eq_true, decide_eq_true_eq] at hP
  refine ⟨steps, st, hrun, hP.1, hP.2, fun h => ?_⟩
  have hthrew := h.running
  rw [hP.1] at hthrew
  cases hthrew

end LoginServer
