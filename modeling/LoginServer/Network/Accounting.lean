import LoginServer.Network.Accepting
import LoginServer.Network.WriteOrder

/-!
# Connections are accounted for

The entries at an address belong to the socket object that is alive there, since a read
chain keeps its object alive until it has nothing left there: every way out of a handler
either starts another read or has erased both entries (`endsClean`). The overflow guard
closes without reaping, and the chain goes on to a read that fails; the oversize reap is
followed by such a read too, and by a second reap, which finds nothing.
-/

namespace LoginServer

open Machines protocol

namespace ReadAction

/-- What is left starts another read, or leaves neither a buffer nor a slot of those that
are there now. -/
def EndsClean : List ReadAction → Prop → Prop → Prop
  | [], buffer, slot => ¬ buffer ∧ ¬ slot
  | startReading :: _, _, _ => True
  | eraseBuffer :: rest, _, slot => EndsClean rest False slot
  | eraseSlot :: rest, buffer, _ => EndsClean rest buffer False
  | storeBuffer _ :: rest, _, slot => EndsClean rest True slot
  | handleClientData _ :: rest, _, slot => EndsClean rest True slot
  | _ :: rest, buffer, slot => EndsClean rest buffer slot

theorem EndsClean.mono {rest : List ReadAction} {buffer buffer' slot slot' : Prop}
    (h : EndsClean rest buffer slot) (hbuffer : buffer' → buffer) (hslot : slot' → slot) :
    EndsClean rest buffer' slot' := by
  induction rest generalizing buffer buffer' slot slot' with
  | nil => exact ⟨fun hb => h.1 (hbuffer hb), fun hs => h.2 (hslot hs)⟩
  | cons action rest ih =>
    cases action with
    | startReading => trivial
    | eraseBuffer =>
      have hrest : EndsClean rest False slot := h
      exact ih hrest id hslot
    | eraseSlot =>
      have hrest : EndsClean rest buffer False := h
      exact ih hrest hbuffer id
    | storeBuffer accumulatedData =>
      have hrest : EndsClean rest True slot := h
      exact ih hrest id hslot
    | handleClientData dataBuffer =>
      have hrest : EndsClean rest True slot := h
      exact ih hrest id hslot
    | _ => exact ih h hbuffer hslot

/-- Whatever is done first can leave at most a buffer behind. -/
theorem EndsClean.append {rest : List ReadAction} {buffer slot : Prop}
    (h : EndsClean rest True slot) (actions : List ReadAction) :
    EndsClean (actions ++ rest) buffer slot := by
  induction actions generalizing buffer slot with
  | nil => exact h.mono (fun _ => trivial) id
  | cons action actions ih =>
    cases action with
    | startReading => trivial
    | eraseSlot => exact ih (h.mono id False.elim)
    | _ => exact ih h

theorem endsClean_responses (errors : List Json) (rest : List ReadAction)
    (buffer slot : Prop) :
    EndsClean (errors.map sendResponse ++ rest) buffer slot ↔ EndsClean rest buffer slot := by
  induction errors with
  | nil => rfl
  | cons err errors ih => exact ih

theorem endsClean_reapSocket (buffer slot : Prop) : EndsClean reapSocket buffer slot :=
  ⟨id, id⟩

/-- An entry stores only bytes of the end of `received`. -/
def Keeps (received : Bytes) : ReadAction → Prop
  | handleClientData _ => False
  | storeBuffer accumulatedData => accumulatedData <:+ received
  | _ => True

theorem keeps_keepRest {received accumulatedData : Bytes} (h : accumulatedData <:+ received) :
    ∀ action ∈ keepRest accumulatedData, action.Keeps received := by
  intro action hmem
  unfold keepRest at hmem
  split_ifs at hmem
  · cases hmem
  · rcases List.mem_cons.mp hmem with rfl | hmem
    · trivial
    · rw [List.mem_singleton.mp hmem]
      exact List.nil_suffix
  · rw [List.mem_singleton.mp hmem]
    exact h

theorem keeps_extractV2Messages {received : Bytes} (k : Nat) {accumulatedData : Bytes}
    (h : accumulatedData <:+ received) :
    ∀ action ∈ extractV2Messages k accumulatedData, action.Keeps received := by
  induction k generalizing accumulatedData with
  | zero => exact keeps_keepRest h
  | succ k ih =>
    unfold extractV2Messages
    split
    · dsimp only
      split_ifs
      · simp [reapSocket, Keeps]
      · exact keeps_keepRest h
      · refine List.forall_mem_cons.mpr ⟨trivial, ih ?_⟩
        exact (List.drop_suffix _ _).trans h
    · exact keeps_keepRest h

end ReadAction

namespace ReadChain

/-- Where the chain is agrees with what the connection has at its address. -/
def Clean : ReadChain → Prop → Prop → Prop
  | .accepted, buffer, _ => ¬ buffer
  | .reading _, _, _ => True
  | .handling rest, buffer, slot => ReadAction.EndsClean rest buffer slot
  | .ended, buffer, slot => ¬ buffer ∧ ¬ slot

theorem clean_handler {rest : List ReadAction} {buffer slot : Prop}
    (h : ReadAction.EndsClean rest buffer slot) : (handler rest).Clean buffer slot := by
  cases rest with
  | nil => exact h
  | cons action rest => exact h

/-- What the chain is to store was received. -/
def Stores (received : Bytes) : ReadChain → Prop
  | .handling rest => (∃ dataBuffer, rest = ReadAction.onData dataBuffer) ∨
    ∀ action ∈ rest, action.Keeps received
  | _ => True

theorem stores_handler {received : Bytes} {rest : List ReadAction}
    (h : ∀ action ∈ rest, action.Keeps received) : (handler rest).Stores received := by
  cases rest with
  | nil => trivial
  | cons action rest => exact .inr h

end ReadChain

namespace Connections

variable {p : NetworkParams} {st st' : Connections} {l : ConnectionLabel} {s : SocketId}
  {a : Nat}

/-- A handler that has not come to its last entry has the connection, and one that has not
admitted it is the first to do anything for it. -/
def PendingOk (st : Connections) (h : AcceptHandler) : Prop :=
  ∀ s, h.socket = some s →
    (h.rest ≠ [.startAccept] → st.chain s = .accepted) ∧
    (AcceptAction.insertActive ∈ h.rest ∨ .close ∈ h.rest →
      st.admitted s = false ∧ st.reaped s = false)

/-- The entries at the addresses and what is recorded of the connections. -/
structure Accounts (p : NetworkParams) (st : Connections) : Prop where
  buffer : ∀ a b, st.socketBuffers a = some b →
    ∃ s, st.writes.addressOf s = some a ∧ b <:+ st.received s
  slot : ∀ a, a ∈ st.activeSockets ↔
    ∃ s, st.writes.addressOf s = some a ∧ st.admitted s = true ∧ st.reaped s = false
  holder : ∀ s, st.admitted s = true → st.reaped s = false →
    (st.writes.addressOf s).isSome = true
  clean : ∀ s a, st.writes.addressOf s = some a →
    (st.chain s).Clean (st.socketBuffers a ≠ none) (a ∈ st.activeSockets)
  stores : ∀ s, (st.chain s).Stores (st.received s)
  pending : ∀ h ∈ st.handlers, st.PendingOk h
  unborn : ∀ s, st.writes.nextSocket ≤ s → st.admitted s = false ∧ st.reaped s = false
  nodup : st.activeSockets.Nodup
  bounded : st.activeSockets.length ≤ p.maxClients

/-- Live objects are at different addresses. -/
theorem Sound.address_inj (h : st.Sound) {s s' : SocketId} {a : Nat}
    (hs : st.writes.addressOf s = some a) (hs' : st.writes.addressOf s' = some a) : s = s' := by
  obtain ⟨o, ho, hoa⟩ := Option.map_eq_some_iff.mp hs
  obtain ⟨o', ho', hoa'⟩ := Option.map_eq_some_iff.mp hs'
  exact h.reach.inv.distinct s s' o o' ho ho' (hoa.trans hoa'.symm)

/-- The buffer at the address of a live object holds bytes of its own connection. -/
theorem Accounts.suffix (h : st.Accounts p) (hsound : st.Sound)
    (ha : st.writes.addressOf s = some a) {b : Bytes} (hb : st.socketBuffers a = some b) :
    b <:+ st.received s := by
  obtain ⟨s', hs', hsuffix⟩ := h.buffer a b hb
  obtain rfl := hsound.address_inj hs' ha
  exact hsuffix

/-- The slot at the address of a live object is its own. -/
theorem Accounts.slot_iff (h : st.Accounts p) (hsound : st.Sound)
    (ha : st.writes.addressOf s = some a) :
    a ∈ st.activeSockets ↔ st.admitted s = true ∧ st.reaped s = false := by
  rw [h.slot a]
  constructor
  · rintro ⟨s', hs', hslot⟩
    obtain rfl := hsound.address_inj hs' ha
    exact hslot
  · exact fun hslot => ⟨s, ha, hslot⟩

/-! ## The steps of a read chain -/

/-- A read chain gives up the slot of its connection, or no slot changes. -/
structure SameSlots (st st' : Connections) : Prop where
  slot : ∀ a, a ∈ st'.activeSockets ↔
    ∃ s, st.writes.addressOf s = some a ∧ st.admitted s = true ∧ st'.reaped s = false
  reaped : ∀ s, st'.reaped s = false → st.reaped s = false
  nodup : st'.activeSockets.Nodup
  length_le : st'.activeSockets.length ≤ st.activeSockets.length

theorem Accounts.sameSlots (h : st.Accounts p) (hsound : st.Sound) {s : SocketId} {a : Nat}
    (ha : st.writes.addressOf s = some a) (heffect : st.ChainEffect st' s a) :
    st.SameSlots st' := by
  rcases heffect.slots with ⟨hactive, hreaped⟩ | ⟨hactive, hreaped⟩
  · refine ⟨?_, ?_, ?_, ?_⟩
    · intro a'
      rw [hactive, hreaped]
      exact h.slot a'
    · intro s'
      rw [hreaped]
      exact id
    · rw [hactive]
      exact h.nodup
    · rw [hactive]
  · have hother : ∀ s', st'.reaped s' = false ↔ s' ≠ s ∧ st.reaped s' = false := by
      intro s'
      rw [hreaped]
      rcases eq_or_ne s' s with rfl | hne
      · simp
      · simp [hne]
    refine ⟨?_, fun s' hs' => ((hother s').mp hs').2, ?_, ?_⟩
    · intro a'
      rw [hactive, h.nodup.mem_erase_iff, h.slot a']
      constructor
      · rintro ⟨hne, s', hs', hadmitted, hnot⟩
        refine ⟨s', hs', hadmitted, (hother s').mpr ⟨?_, hnot⟩⟩
        rintro rfl
        rw [ha] at hs'
        exact hne (Option.some.inj hs').symm
      · rintro ⟨s', hs', hadmitted, hnot⟩
        obtain ⟨hne, hnot⟩ := (hother s').mp hnot
        refine ⟨?_, s', hs', hadmitted, hnot⟩
        rintro rfl
        exact hne (hsound.address_inj hs' ha)
    · rw [hactive]
      exact h.nodup.erase a
    · rw [hactive]
      exact List.length_erase_le

theorem mem_activeSockets_of_ne (heffect : st.ChainEffect st' s a) {a' : Nat} (hne : a' ≠ a) :
    a' ∈ st'.activeSockets ↔ a' ∈ st.activeSockets := by
  rcases heffect.slots with ⟨hactive, -⟩ | ⟨hactive, -⟩
  · rw [hactive]
  · rw [hactive, List.mem_erase_of_ne hne]

theorem reaped_of_ne (heffect : st.ChainEffect st' s a) {s' : SocketId} (hne : s' ≠ s) :
    st'.reaped s' = st.reaped s' := by
  rcases heffect.slots with ⟨-, hreaped⟩ | ⟨-, hreaped⟩
  · rw [hreaped]
  · rw [hreaped, Function.update_of_ne hne]

/-- The socket of a chain that goes on is alive. -/
theorem Sound.alive (h : st.Sound) (hs : (st.chain s).isEnded = false) :
    ∃ a, st.writes.addressOf s = some a :=
  Option.isSome_iff_exists.mp (h.refs.alive s (h.refs.held s (.inr hs)))

theorem Sound.lt_nextSocket (h : st.Sound) (hs : st.writes.addressOf s = some a) :
    s < st.writes.nextSocket := by
  obtain ⟨o, ho, -⟩ := Option.map_eq_some_iff.mp hs
  exact h.reach.inv.socket_lt s o ho

/-- A step for a connection that leaves its own entries in order. -/
theorem Accounts.chainStep (h : st.Accounts p) (hsound : st.Sound)
    (ha : st.writes.addressOf s = some a) (heffect : st.ChainEffect st' s a)
    (hpending : ∀ h ∈ st'.handlers, st'.PendingOk h)
    (hbuffer : ∀ b, st'.socketBuffers a = some b → b <:+ st'.received s)
    (hclean : (st'.chain s).Clean (st'.socketBuffers a ≠ none) (a ∈ st'.activeSockets))
    (hstores : (st'.chain s).Stores (st'.received s)) : st'.Accounts p := by
  have hslots := h.sameSlots hsound ha heffect
  have haddr := heffect.objects.addressOf
  have hne_of : ∀ {s' a'}, s' ≠ s → st.writes.addressOf s' = some a' → a' ≠ a := by
    rintro s' a' hne hs' rfl
    exact hne (hsound.address_inj hs' ha)
  constructor
  case buffer =>
    intro a' b hb
    rw [haddr]
    rcases eq_or_ne a' a with rfl | hne
    · exact ⟨s, ha, hbuffer b hb⟩
    · rw [heffect.buffers a' hne] at hb
      obtain ⟨s', hs', hsuffix⟩ := h.buffer a' b hb
      have hne' : s' ≠ s := by
        rintro rfl
        rw [ha] at hs'
        exact hne (Option.some.inj hs').symm
      exact ⟨s', hs', heffect.received s' hne' ▸ hsuffix⟩
  case slot =>
    intro a'
    rw [haddr, heffect.admitted]
    exact hslots.slot a'
  case holder =>
    intro s' hadmitted hnot
    rw [haddr]
    rw [heffect.admitted] at hadmitted
    exact h.holder s' hadmitted (hslots.reaped s' hnot)
  case clean =>
    intro s' a' hs'
    rw [haddr] at hs'
    rcases eq_or_ne s' s with rfl | hne
    · rw [ha] at hs'
      cases hs'
      exact hclean
    · have hne' := hne_of hne hs'
      rw [heffect.chain s' hne, heffect.buffers a' hne']
      rw [mem_activeSockets_of_ne heffect hne']
      exact h.clean s' a' hs'
  case stores =>
    intro s'
    rcases eq_or_ne s' s with rfl | hne
    · exact hstores
    · rw [heffect.chain s' hne, heffect.received s' hne]
      exact h.stores s'
  case pending => exact hpending
  case unborn =>
    intro s' hlt
    rw [heffect.objects.nextSocket] at hlt
    have hne : s' ≠ s := (Nat.lt_of_lt_of_le (hsound.lt_nextSocket ha) hlt).ne'
    rw [heffect.admitted, reaped_of_ne heffect hne]
    exact h.unborn s' hlt
  case nodup => exact hslots.nodup
  case bounded => exact hslots.length_le.trans h.bounded

theorem Accounts.read (h : st.Accounts p) (hsound : st.Sound)
    (ha : st.writes.addressOf s = some a) (hs : st.chain s ≠ .accepted)
    (heffect : st.ReadEffect st' s a)
    (hbuffer : ∀ b, st'.socketBuffers a = some b → b <:+ st'.received s)
    (hclean : (st'.chain s).Clean (st'.socketBuffers a ≠ none) (a ∈ st'.activeSockets))
    (hstores : (st'.chain s).Stores (st'.received s)) : st'.Accounts p := by
  refine h.chainStep hsound ha heffect.toChainEffect ?_ hbuffer hclean hstores
  intro handler hmem s' hs'
  rw [heffect.handlers] at hmem
  obtain ⟨hchain, hfresh⟩ := h.pending handler hmem s' hs'
  refine ⟨fun hrest => ?_, fun hrest => ?_⟩
  · have hne : s' ≠ s := by
      rintro rfl
      exact hs (hchain hrest)
    rw [heffect.chain s' hne]
    exact hchain hrest
  · have hne : s' ≠ s := by
      rintro rfl
      refine hs (hchain fun hlast => ?_)
      simp [hlast] at hrest
    rw [heffect.admitted, reaped_of_ne heffect.toChainEffect hne]
    exact hfresh hrest

/-- An entry that leaves the buffer and the slot as they are. -/
theorem Accounts.readOn (h : st.Accounts p) (hsound : st.Sound)
    (ha : st.writes.addressOf s = some a) {writes : Writes} {refused : SocketId → Option Nat}
    {c : ReadChain} (hs : st.chain s ≠ .accepted) (hobjects : st.writes.SameObjects writes)
    (hclean : c.Clean (st.socketBuffers a ≠ none) (a ∈ st.activeSockets))
    (hstores : c.Stores (st.received s)) :
    Accounts p ({ st with writes := writes, refused := refused }.setChain s c) := by
  refine h.read hsound ha hs (.of_writes st hobjects s c a) ?_ ?_ ?_
  · exact fun b hb => h.suffix hsound ha hb
  · simpa [setChain] using hclean
  · simpa [setChain] using hstores

/-- An entry that changes the buffer. -/
theorem Accounts.readBuffer (h : st.Accounts p) (hsound : st.Sound)
    (ha : st.writes.addressOf s = some a) {received : Bytes} {entry : Option Bytes}
    {c : ReadChain} (hs : st.chain s ≠ .accepted) (hentry : ∀ b, entry = some b → b <:+ received)
    (hclean : c.Clean (entry ≠ none) (a ∈ st.activeSockets))
    (hstores : c.Stores received) :
    Accounts p (({ st with received := Function.update st.received s received }.setBuffer a
      entry).setChain s c) := by
  refine h.read hsound ha hs (.of_buffer st s a received entry c) ?_ ?_ ?_
  · intro b hb
    simp only [setChain, setBuffer, Function.update_self] at hb ⊢
    exact hentry b hb
  · simpa [setChain, setBuffer] using hclean
  · simpa [setChain, setBuffer] using hstores

/-- The first entry of the handler takes the bytes that were kept, and those just read. -/
theorem Accounts.takeData (h : st.Accounts p) (hsound : st.Sound)
    (ha : st.writes.addressOf s = some a) {dataBuffer : Bytes} {rest : List ReadAction}
    (hc : st.chain s = .handling (.handleClientData dataBuffer :: rest)) :
    (st.takeData s a dataBuffer rest).Accounts p := by
  have hs : st.chain s ≠ .accepted := by simp [hc]
  have hrest : rest = [.startReading] := by
    have hstores := h.stores s
    rw [hc] at hstores
    rcases hstores with ⟨d, hd⟩ | hkeeps
    · simp only [ReadAction.onData, List.cons.injEq] at hd
      exact hd.2
    · exact (hkeeps _ List.mem_cons_self).elim
  subst hrest
  have haccumulated : (st.socketBuffers a).getD [] ++ dataBuffer <:+
      st.received s ++ dataBuffer := by
    have hkept : (st.socketBuffers a).getD [] <:+ st.received s := by
      cases hb : st.socketBuffers a with
      | none => exact List.nil_suffix
      | some b => exact h.suffix hsound ha hb
    obtain ⟨before, hbefore⟩ := hkept
    exact ⟨before, by rw [← hbefore, List.append_assoc]⟩
  unfold Connections.takeData
  dsimp only
  split
  · refine h.readBuffer hsound ha hs (fun b hb => by cases hb) trivial (.inr ?_)
    simp [ReadAction.Keeps]
  · refine h.readBuffer hsound ha hs ?_ (ReadChain.clean_handler ?_) (ReadChain.stores_handler ?_)
    · intro b hb
      obtain ⟨_, -, rfl⟩ := Option.map_eq_some_iff.mp hb
      exact List.nil_suffix
    · have hend : ReadAction.EndsClean [.startReading] True (a ∈ st.activeSockets) := trivial
      exact hend.append _
    · refine List.forall_mem_append.mpr
        ⟨ReadAction.keeps_extractV2Messages _ haccumulated, ?_⟩
      simp [ReadAction.Keeps]

theorem Accounts.runRead (h : st.Accounts p) (hsound : st.Sound)
    (ha : st.writes.addressOf s = some a) {remoteAddress : Option Bytes} {now : Int}
    {action : ReadAction} {rest : List ReadAction}
    (hc : st.chain s = .handling (action :: rest))
    (hrun : st.runRead p s a remoteAddress now rest action = some st') : st'.Accounts p := by
  have hs : st.chain s ≠ .accepted := by simp [hc]
  have hclean := h.clean s a ha
  rw [hc] at hclean
  have hkeeps : (∀ d, action ≠ .handleClientData d) →
      ∀ action' ∈ action :: rest, action'.Keeps (st.received s) := by
    intro hnot
    have hstores := h.stores s
    rw [hc] at hstores
    rcases hstores with ⟨d, hd⟩ | hkeeps
    · simp only [ReadAction.onData, List.cons.injEq] at hd
      exact absurd hd.1 (hnot d)
    · exact hkeeps
  have hrest := fun hnot => (List.forall_mem_cons.mp (hkeeps hnot)).2
  cases action with
  | handleClientData dataBuffer =>
    cases hrun
    exact h.takeData hsound ha hc
  | processMessage message =>
    cases hrun
    refine h.readOn hsound ha hs (.refl _) (ReadChain.clean_handler ?_)
      (ReadChain.stores_handler ?_)
    · exact (ReadAction.endsClean_responses _ _ _ _).mpr hclean
    · refine List.forall_mem_append.mpr ⟨?_, hrest (by simp)⟩
      simp [ReadAction.Keeps]
  | sendResponse err =>
    simp only [Connections.runRead, bind, Option.bind_eq_some_iff, Option.some.injEq] at hrun
    obtain ⟨writes, hw, rfl⟩ := hrun
    exact h.readOn hsound ha hs (Writes.sameObjects_sendText hw)
      (ReadChain.clean_handler hclean) (ReadChain.stores_handler (hrest (by simp)))
  | sendOversize =>
    simp only [Connections.runRead, bind, Option.bind_eq_some_iff, Option.some.injEq] at hrun
    obtain ⟨writes, hw, rfl⟩ := hrun
    exact h.readOn hsound ha hs (Writes.sameObjects_sendText hw)
      (ReadChain.clean_handler hclean) (ReadChain.stores_handler (hrest (by simp)))
  | storeBuffer accumulatedData =>
    cases hrun
    rw [setBuffer_eq st s]
    refine h.readBuffer hsound ha hs ?_ (ReadChain.clean_handler ?_)
      (ReadChain.stores_handler (hrest (by simp)))
    · intro b hb
      cases hb
      exact hkeeps (by simp) _ List.mem_cons_self
    · have hstored : ReadAction.EndsClean rest True (a ∈ st.activeSockets) := hclean
      exact hstored.mono (fun _ => trivial) id
  | eraseBuffer =>
    cases hrun
    rw [setBuffer_eq st s]
    refine h.readBuffer hsound ha hs (fun b hb => by cases hb) (ReadChain.clean_handler ?_)
      (ReadChain.stores_handler (hrest (by simp)))
    have hgone : ReadAction.EndsClean rest False (a ∈ st.activeSockets) := hclean
    exact hgone.mono (fun hb => hb rfl) id
  | eraseSlot =>
    have heffect := runRead_effect hrun
    cases hrun
    refine h.read hsound ha hs heffect ?_ ?_ ?_
    · exact fun b hb => h.suffix hsound ha hb
    · have hgone : ReadAction.EndsClean rest (st.socketBuffers a ≠ none) False := hclean
      simp only [setChain, Function.update_self]
      refine ReadChain.clean_handler (hgone.mono id fun hmem => ?_)
      exact (h.nodup.mem_erase_iff.mp hmem).1 rfl
    · simp only [setChain, Function.update_self]
      exact ReadChain.stores_handler (hrest (by simp))
  | removeWriteQueue =>
    cases hrun
    exact h.readOn hsound ha hs (Writes.sameObjects_removeWriteQueue _ _)
      (ReadChain.clean_handler hclean) (ReadChain.stores_handler (hrest (by simp)))
  | close =>
    cases hrun
    exact h.readOn hsound ha hs (Writes.sameObjects_close _ s) (ReadChain.clean_handler hclean)
      (ReadChain.stores_handler (hrest (by simp)))
  | startReading =>
    cases hrun
    exact h.readOn hsound ha hs (.refl _) trivial trivial

/-! ## The other steps -/

theorem pendingOk_last (st : Connections) (socket : Option SocketId) :
    st.PendingOk ⟨socket, [.startAccept]⟩ := by
  intro s _
  simp

/-- The accept handler lets go of a connection: to its read chain, or closed. -/
theorem Accounts.handOver (h : st.Accounts p) (hsound : st.Sound)
    (ha : st.writes.addressOf s = some a) {writes : Writes}
    (hobjects : st.writes.SameObjects writes) {c : ReadChain}
    (hclean : c.Clean (st.socketBuffers a ≠ none) (a ∈ st.activeSockets))
    (hstores : c.Stores (st.received s)) :
    Accounts p
      { st with
        writes := writes
        handlers := [⟨some s, [.startAccept]⟩]
        chain := Function.update st.chain s c } := by
  refine h.chainStep hsound ha ⟨rfl, hobjects, fun _ hne => Function.update_of_ne hne _ _,
    fun _ _ => rfl, fun _ _ => rfl, .inl ⟨rfl, rfl⟩⟩ ?_ ?_ ?_ ?_
  · exact List.forall_mem_singleton.mpr (pendingOk_last _ _)
  · exact fun b hb => h.suffix hsound ha hb
  · simpa using hclean
  · simpa using hstores

/-- A connection takes a slot, and there was room for it. -/
theorem Accounts.insertActive (h : st.Accounts p) (hsound : st.Sound)
    (ha : st.writes.addressOf s = some a) (hchain : st.chain s = .accepted)
    (hnot : st.reaped s = false) (hroom : st.activeSockets.length < p.maxClients) :
    Accounts p
      { st with
        handlers := [⟨some s, [.startReading, .startAccept]⟩]
        activeSockets := st.activeSockets.insert a
        admitted := Function.update st.admitted s true } := by
  have hadmitted : ∀ s', Function.update st.admitted s true s' = true ↔
      s' = s ∨ st.admitted s' = true := by
    intro s'
    rcases eq_or_ne s' s with rfl | hne
    · simp
    · simp [hne]
  constructor
  case buffer => exact h.buffer
  case slot =>
    intro a'
    simp only [List.mem_insert_iff, hadmitted, h.slot a']
    constructor
    · rintro (rfl | ⟨s', hs', hslot, hnot'⟩)
      · exact ⟨s, ha, .inl rfl, hnot⟩
      · exact ⟨s', hs', .inr hslot, hnot'⟩
    · rintro ⟨s', hs', rfl | hslot, hnot'⟩
      · rw [ha] at hs'
        exact .inl (Option.some.inj hs').symm
      · exact .inr ⟨s', hs', hslot, hnot'⟩
  case holder =>
    intro s' hs' hnot'
    rcases (hadmitted s').mp hs' with rfl | hs'
    · rw [ha]
      rfl
    · exact h.holder s' hs' hnot'
  case clean =>
    intro s' a' hs'
    have hold := h.clean s' a' hs'
    rcases eq_or_ne s' s with rfl | hne
    · rw [hchain] at hold ⊢
      exact hold
    · have hne' : a' ≠ a := by
        rintro rfl
        exact hne (hsound.address_inj hs' ha)
      simp only [List.mem_insert_iff, hne', false_or]
      exact hold
  case stores => exact h.stores
  case pending =>
    refine List.forall_mem_singleton.mpr fun s' hs' => ?_
    cases hs'
    exact ⟨fun _ => hchain, fun hrest => by simp at hrest⟩
  case unborn =>
    intro s' hlt
    have hne : s' ≠ s := (Nat.lt_of_lt_of_le (hsound.lt_nextSocket ha) hlt).ne'
    simp only [Function.update_of_ne hne]
    exact h.unborn s' hlt
  case nodup => exact h.nodup.insert
  case bounded =>
    have hle : (st.activeSockets.insert a).length ≤ st.activeSockets.length + 1 := by
      rw [List.length_insert]
      split <;> omega
    exact hle.trans hroom

theorem Accounts.acceptStep (h : st.Accounts p) (hsound : st.Sound)
    (ha : st.writes.addressOf s = some a) (hstep : AcceptStep p st s a st') : st'.Accounts p := by
  have hpending : ∀ {rest : List AcceptAction}, st.handlers = [⟨some s, rest⟩] →
      st.PendingOk ⟨some s, rest⟩ := fun hone => h.pending _ (by simp [hone])
  have hclean := h.clean s a ha
  cases hstep with
  | full hone hfull =>
    obtain ⟨hchain, hfresh⟩ := hpending hone s rfl
    refine { h with pending := List.forall_mem_singleton.mpr ?_ }
    intro s' hs'
    cases hs'
    exact ⟨fun _ => hchain (by simp), fun _ => hfresh (by simp)⟩
  | admitted hone hroom =>
    obtain ⟨hchain, hfresh⟩ := hpending hone s rfl
    exact h.insertActive hsound ha (hchain (by simp)) (hfresh (by simp)).2 hroom
  | closed hone =>
    obtain ⟨hchain, hfresh⟩ := hpending hone s rfl
    rw [hchain (by simp)] at hclean
    refine h.handOver hsound ha (Writes.sameObjects_close _ s) ⟨hclean, ?_⟩ trivial
    rw [h.slot_iff hsound ha, (hfresh (by simp)).1]
    simp
  | reading hone => exact h.handOver hsound ha (.refl _) trivial trivial

theorem Accounts.sameAddresses (h : st.Accounts p) {writes : Writes}
    (haddr : writes.addressOf = st.writes.addressOf)
    (hnext : writes.nextSocket = st.writes.nextSocket) :
    Accounts p { st with writes := writes } where
  buffer := by
    rw [haddr]
    exact h.buffer
  slot := by
    rw [haddr]
    exact h.slot
  holder := by
    rw [haddr]
    exact h.holder
  clean := by
    rw [haddr]
    exact h.clean
  stores := h.stores
  pending := h.pending
  unborn := by
    rw [hnext]
    exact h.unborn
  nodup := h.nodup
  bounded := h.bounded

/-- A connection whose chain has ended has nothing at its address. -/
theorem Accounts.ended (h : st.Accounts p) (hended : (st.chain s).isEnded = true)
    (ha : st.writes.addressOf s = some a) : st.socketBuffers a = none ∧ a ∉ st.activeSockets := by
  have hclean := h.clean s a ha
  cases hc : st.chain s with
  | ended =>
    rw [hc] at hclean
    exact ⟨not_not.mp hclean.1, hclean.2⟩
  | _ =>
    rw [hc] at hended
    cases hended

/-- A socket object goes, and with it nothing that the maps hold. -/
theorem Accounts.destroy (h : st.Accounts p) (hsound : st.Sound)
    (hended : (st.chain s).isEnded = true) :
    Accounts p { st with
      writes := { st.writes with sockets := Function.update st.writes.sockets s none } } := by
  have haddr : ∀ s' a', Writes.addressOf { st.writes with
      sockets := Function.update st.writes.sockets s none } s' = some a' ↔
        s' ≠ s ∧ st.writes.addressOf s' = some a' := by
    intro s' a'
    rcases eq_or_ne s' s with rfl | hne
    · simp [Writes.addressOf]
    · simp [Writes.addressOf, hne]
  have hnone : ∀ {a'}, st.writes.addressOf s = some a' →
      st.socketBuffers a' = none ∧ a' ∉ st.activeSockets := fun ha => h.ended hended ha
  constructor
  case buffer =>
    intro a' b hb
    obtain ⟨s', hs', hsuffix⟩ := h.buffer a' b hb
    refine ⟨s', (haddr s' a').mpr ⟨?_, hs'⟩, hsuffix⟩
    rintro rfl
    have hgone := (hnone hs').1
    rw [hb] at hgone
    cases hgone
  case slot =>
    intro a'
    rw [h.slot a']
    constructor
    · rintro ⟨s', hs', hslot⟩
      refine ⟨s', (haddr s' a').mpr ⟨?_, hs'⟩, hslot⟩
      rintro rfl
      exact (hnone hs').2 ((h.slot a').mpr ⟨s', hs', hslot⟩)
    · rintro ⟨s', hs', hslot⟩
      exact ⟨s', ((haddr s' a').mp hs').2, hslot⟩
  case holder =>
    intro s' hadmitted hnot
    obtain ⟨a', ha⟩ := Option.isSome_iff_exists.mp (h.holder s' hadmitted hnot)
    refine Option.isSome_iff_exists.mpr ⟨a', (haddr s' a').mpr ⟨?_, ha⟩⟩
    rintro rfl
    exact (hnone ha).2 ((h.slot_iff hsound ha).mpr ⟨hadmitted, hnot⟩)
  case clean => exact fun s' a' hs' => h.clean s' a' ((haddr s' a').mp hs').2
  case stores => exact h.stores
  case pending => exact h.pending
  case unborn => exact h.unborn
  case nodup => exact h.nodup
  case bounded => exact h.bounded

theorem Accounts.write (h : st.Accounts p) (hsound : st.Sound) {l : WriteLabel}
    {writes : Writes} (hl : st.otherThread l = true) (hw : st.writes.step l = some writes) :
    Accounts p { st with writes := writes } := by
  cases Writes.step_cases hw with
  | accept => cases hl
  | release s => exact h.sameAddresses rfl rfl
  | @destroy s hfree =>
    refine h.destroy hsound ?_
    by_contra hended
    have hheld := hsound.refs.held s (.inr (by simpa using hended))
    rw [Writes.held_of_not_referenced hfree] at hheld
    cases hheld
  | _ =>
    have hobjects := Writes.sameObjects_of_step rfl hw
    exact h.sameAddresses hobjects.addressOf hobjects.nextSocket

/-- A new socket object, at an address where there is nothing. -/
theorem Accounts.accept (h : st.Accounts p) (hsound : st.Sound) {address : Nat}
    {writes : Writes} (hw : st.writes.step (.accept address) = some writes)
    (outstanding : List Nat) :
    Accounts p ({ st with
      writes := writes
      outstanding := outstanding
      handlers := [AcceptHandler.onSuccess st.writes.nextSocket] }.setChain
        st.writes.nextSocket .accepted) := by
  obtain ⟨hfree⟩ := Writes.step_cases hw
  have hunborn := h.unborn st.writes.nextSocket (Nat.le_refl _)
  have hold : ∀ {s a}, st.writes.addressOf s = some a →
      s ≠ st.writes.nextSocket ∧ a ≠ address := by
    intro s a hs
    have hlt := hsound.lt_nextSocket hs
    obtain ⟨o, ho, rfl⟩ := Option.map_eq_some_iff.mp hs
    have hother := List.all_eq_true.mp hfree s (List.mem_range.mpr hlt)
    have ho : st.writes.sockets s = some o := ho
    rw [ho] at hother
    exact ⟨hlt.ne, by simpa using hother⟩
  have haddr : ∀ s a, Writes.addressOf { st.writes with
      sockets := Function.update st.writes.sockets st.writes.nextSocket (some ⟨address, true⟩)
      held := Function.update st.writes.held st.writes.nextSocket true
      nextSocket := st.writes.nextSocket + 1 } s = some a ↔
      (s = st.writes.nextSocket ∧ a = address) ∨ st.writes.addressOf s = some a := by
    intro s a
    rcases eq_or_ne s st.writes.nextSocket with rfl | hne
    · simp only [Writes.addressOf, Function.update_self, Option.map_some, Option.some.injEq,
        true_and, @eq_comm _ address]
      exact (or_iff_left fun hs => (hold hs).1 rfl).symm
    · simp [Writes.addressOf, hne]
  constructor
  case buffer =>
    intro a b hb
    obtain ⟨s, hs, hsuffix⟩ := h.buffer a b hb
    exact ⟨s, (haddr s a).mpr (.inr hs), hsuffix⟩
  case slot =>
    intro a
    change a ∈ st.activeSockets ↔ _
    rw [h.slot a]
    constructor
    · rintro ⟨s, hs, hslot⟩
      exact ⟨s, (haddr s a).mpr (.inr hs), hslot⟩
    · rintro ⟨s, hs, hslot⟩
      rcases (haddr s a).mp hs with ⟨rfl, -⟩ | hs
      · exact absurd hslot.1 (by simp [setChain, hunborn.1])
      · exact ⟨s, hs, hslot⟩
  case holder =>
    intro s hadmitted hnot
    obtain ⟨a, ha⟩ := Option.isSome_iff_exists.mp (h.holder s hadmitted hnot)
    exact Option.isSome_iff_exists.mpr ⟨a, (haddr s a).mpr (.inr ha)⟩
  case clean =>
    intro s a hs
    rcases (haddr s a).mp hs with ⟨rfl, rfl⟩ | hs
    · simp only [setChain, Function.update_self]
      intro hbuffer
      obtain ⟨b, hb⟩ := Option.ne_none_iff_exists'.mp hbuffer
      obtain ⟨s', hs', -⟩ := h.buffer a b hb
      exact (hold hs').2 rfl
    · simp only [setChain, Function.update_of_ne (hold hs).1]
      exact h.clean s a hs
  case stores =>
    intro s
    rcases eq_or_ne s st.writes.nextSocket with rfl | hne
    · simp only [setChain, Function.update_self]
      trivial
    · simp only [setChain, Function.update_of_ne hne]
      exact h.stores s
  case pending =>
    refine List.forall_mem_singleton.mpr fun s hs => ?_
    cases hs
    exact ⟨fun _ => by simp [setChain], fun _ => hunborn⟩
  case unborn =>
    intro s hlt
    exact h.unborn s (Nat.le_of_succ_le hlt)
  case nodup => exact h.nodup
  case bounded => exact h.bounded

theorem Accounts.step (h : st.Accounts p) (hsound : st.Sound) (hstep : Step p st l st') :
    st'.Accounts p := by
  cases hstep with
  | write hl hw => exact h.write hsound hl hw
  | acceptError ha =>
    refine { h with pending := List.forall_mem_append.mpr ⟨h.pending, ?_⟩ }
    exact List.forall_mem_singleton.mpr (pendingOk_last _ _)
  | acceptSuccess ha hw =>
    obtain ⟨-, -, hnone⟩ := hsound.side.of_outstanding ha
    rw [hnone]
    exact h.accept hsound hw _
  | connected hh hrest =>
    obtain ⟨-, s, hone, hset⟩ := hsound.side.of_connected hh hrest
    rw [hset]
    obtain ⟨hchain, hfresh⟩ := h.pending _ (by rw [hone]; exact List.mem_singleton_self _) s rfl
    refine { h with pending := List.forall_mem_singleton.mpr fun s' hs' => ?_ }
    cases hs'
    exact ⟨fun _ => hchain (by simp), fun _ => hfresh (by simp)⟩
  | threw hh hrest => exact { h with }
  | acceptHandler hh hs ho hrest hrun =>
    exact h.acceptStep hsound ho (hsound.side.step_handler hh hs hrest hrun)
  | startAccept hh hrest hfree hnew =>
    obtain ⟨-, hset⟩ := hsound.side.of_startAccept hh hrest
    rw [hset]
    exact { h with pending := fun _ hmem => by cases hmem }
  | readData hc =>
    obtain ⟨a, ha⟩ := hsound.alive (by rw [hc]; rfl)
    exact h.readOn hsound ha (by simp [hc]) (.refl _) trivial (.inl ⟨_, rfl⟩)
  | readError hc =>
    obtain ⟨a, ha⟩ := hsound.alive (by rw [hc]; rfl)
    refine h.readOn hsound ha (by simp [hc]) (.refl _) ?_ (.inr ?_)
    · exact ReadAction.endsClean_reapSocket (st.socketBuffers a ≠ none) (a ∈ st.activeSockets)
    · simp [ReadAction.reapSocket, ReadAction.Keeps]
  | readHandler ho hc hrun => exact h.runRead hsound ho hc hrun

theorem accounts_init (p : NetworkParams) : Accounts p {} where
  buffer := by simp
  slot := by simp [Writes.addressOf]
  holder := by simp
  clean := by simp [Writes.addressOf]
  stores := fun _ => trivial
  pending := List.forall_mem_singleton.mpr (pendingOk_last _ _)
  unborn := fun _ _ => ⟨rfl, rfl⟩
  nodup := List.nodup_nil
  bounded := Nat.zero_le _

theorem Accounts.of_run {steps : List (Connections × ConnectionLabel)}
    (hrun : (connections p).Run steps st) : st.Accounts p := by
  have hboth : st.Sound ∧ st.Accounts p := by
    refine hrun.invariant (I := fun st => st.Sound ∧ st.Accounts p)
      ⟨.of_run .init, accounts_init p⟩ ?_
    rintro st l st' ⟨hsound, h⟩ (hs : st.step p l = some st')
    have hstep := (step_cases hs).2
    exact ⟨hsound.step hstep, h.step hsound hstep⟩
  exact hboth.2

/-! ## What the two maps hold -/

/-- The other live connections have what they had. -/
def KeepsOthers (st st' : Connections) (s : SocketId) : Prop :=
  ∀ s' a, s' ≠ s → st.writes.addressOf s' = some a →
    st'.socketBuffers a = st.socketBuffers a ∧ (a ∈ st'.activeSockets ↔ a ∈ st.activeSockets)

/-- `socketBuffers_` and `activeSockets_` account for the connections. -/
structure Accounted (p : NetworkParams) (st : Connections) : Prop where
  /-- What is kept at an address was received on the connection that is alive there. -/
  buffers : ∀ a b, st.socketBuffers a = some b →
    ∃ s, st.writes.addressOf s = some a ∧ b <:+ st.received s
  /-- The slots are those of the connections admitted and not reaped, one for each. -/
  slots : ∀ a, a ∈ st.activeSockets ↔
    ∃ s, st.writes.addressOf s = some a ∧ st.admitted s = true ∧ st.reaped s = false
  holders : ∀ s, st.admitted s = true → st.reaped s = false →
    ∃ a, st.writes.addressOf s = some a
  distinct : st.activeSockets.Nodup
  bounded : (st.activeSockets.length : Int) ≤ p.max_clients
  /-- A `reapSocket`, a repeated one too, leaves what belongs to others. -/
  others : ∀ s remoteAddress now st', st.step p (.readHandler s remoteAddress now) = some st' →
    st.KeepsOthers st' s
  /-- A connection whose chain has ended owns nothing. -/
  ended : ∀ s, (st.chain s).isEnded = true → (st.admitted s = true → st.reaped s = true) ∧
    ∀ a, st.writes.addressOf s = some a → st.socketBuffers a = none ∧ a ∉ st.activeSockets

theorem keepsOthers_readHandler (hsound : st.Sound) {remoteAddress : Option Bytes} {now : Int}
    (h : st.step p (.readHandler s remoteAddress now) = some st') : st.KeepsOthers st' s := by
  cases (step_cases h).2 with
  | readHandler ho hc hrun =>
    rename_i address action rest
    have heffect := (runRead_effect hrun).toChainEffect
    intro s' a' hne hs'
    have hne' : a' ≠ address := by
      rintro rfl
      exact hne (hsound.address_inj hs' ho)
    exact ⟨heffect.buffers a' hne', mem_activeSockets_of_ne heffect hne'⟩

end Connections

/-- In every run the maps account for the connections, however addresses are reused. -/
theorem connections_accounted {p : NetworkParams} {st : Connections}
    {steps : List (Connections × ConnectionLabel)} (hrun : (connections p).Run steps st) :
    st.Accounted p := by
  have hsound := Connections.Sound.of_run hrun
  have h := Connections.Accounts.of_run hrun
  refine ⟨h.buffer, h.slot, ?_, h.nodup, ?_, fun s _ _ st' =>
    Connections.keepsOthers_readHandler hsound, fun s hended => ⟨?_, fun a => h.ended hended⟩⟩
  · exact fun s hadmitted hnot => Option.isSome_iff_exists.mp (h.holder s hadmitted hnot)
  · have hbounded := h.bounded
    have hrange := p.max_clients_range
    rw [NetworkParams.maxClients] at hbounded
    omega
  · intro hadmitted
    by_contra hnot
    have hnot : st.reaped s = false := by simpa using hnot
    obtain ⟨a, ha⟩ := Option.isSome_iff_exists.mp (h.holder s hadmitted hnot)
    exact (h.ended hended ha).2 ((h.slot_iff hsound ha).mpr ⟨hadmitted, hnot⟩)

/-- A connection with half a prefix in its buffer is closed by a write error and reaped; the
next one, at the same address, has its own byte there. -/
theorem connections_accounted_reused :
    ∃ steps st, (connections smallNetwork).Run steps st ∧ st.received 0 = [1, 0] ∧
      st.socketBuffers 7 = some [9] ∧ st.Accounted smallNetwork := by
  obtain ⟨steps, st, hrun, hP⟩ := Machine.exists_run (connections smallNetwork)
    [.startAccept 0 7, .acceptCompleted 0 false, .remoteEndpoint 0 true, .acceptHandler 0,
      .acceptHandler 0, .startAccept 0 8, .readCompleted 0 (some [1, 0]), .readHandler 0 none 0,
      .readHandler 0 none 0, .readHandler 0 none 0, .write (.enqueueWrite 0 [65]),
      .write (.post 0), .write (.runTask 0), .write (.complete 0 true), .write (.runTask 0),
      .readCompleted 0 none, .readHandler 0 none 0, .readHandler 0 none 0, .readHandler 0 none 0,
      .readHandler 0 none 0, .acceptCompleted 0 true, .write (.release 0), .write (.destroy 0),
      .startAccept 0 7, .acceptCompleted 0 false, .remoteEndpoint 0 true, .acceptHandler 0,
      .acceptHandler 0, .readCompleted 1 (some [9]), .readHandler 1 none 0,
      .readHandler 1 none 0]
    (fun r => r.2.received 0 = [1, 0] && r.2.socketBuffers 7 = some [9]) (by decide)
  rw [Bool.and_eq_true, decide_eq_true_eq, decide_eq_true_eq] at hP
  exact ⟨steps, st, hrun, hP.1, hP.2, connections_accounted hrun⟩

end LoginServer
