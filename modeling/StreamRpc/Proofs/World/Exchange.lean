import StreamRpc.Proofs.Server.Heard
import StreamRpc.Proofs.World.Ledger
import StreamRpc.Proofs.World.Run

/-! # What servers and clients exchange

Each step of a world comes to a few steps of its network, and what can be told of the step says what
is logged of them.

* `World.Step.exchange`                       a step of a world, as steps of its network
-/

namespace StreamRpc

/-! ## What is logged of events -/

/-- What is logged of an event of the server. -/
def ServerEvent.transit? : ServerEvent → Option Transit
  | served e => some (.served e)
  | departed a => some (.departed a)
  | sent _ a e accepted => some (.said a e accepted)
  | _ => none

/-- What is logged of an event of a client. -/
def ClientEvent.transit? (i : Nat) : ClientEvent → Option Transit
  | took e => some (.took i e)
  | asked _ _ _ e => some (.posted i e true)
  | told _ e accepted => some (.posted i e accepted)
  | _ => none

def WorldEvent.transit? : WorldEvent → Option Transit
  | server x => x.transit?
  | client i x => x.transit? i

/-- What is logged of a run. -/
def WorldTrace.transits (tr : WorldTrace) : List Transit :=
  tr.filterMap WorldEvent.transit?

namespace WorldTrace

/-- What crosses the transport is read off a trace piece by piece. -/
@[simp] theorem transits_append (tr tr' : WorldTrace) :
    transits (tr ++ tr') = transits tr ++ transits tr' :=
  List.filterMap_append

/-- Of the server's events those cross that send, serve or hear a departure. -/
@[simp] theorem transits_map_server (es : ServerTrace) :
    transits (es.map .server) = es.filterMap ServerEvent.transit? := by
  rw [transits, List.filterMap_map]
  rfl

/-- Of a client's events those cross that post or take. -/
@[simp] theorem transits_map_client (i : Nat) (es : ClientTrace) :
    transits (es.map (.client i)) = es.filterMap (ClientEvent.transit? i) := by
  rw [transits, List.filterMap_map]
  rfl

end WorldTrace

/-- Of what a server did not hear from outside, what it sends is logged, and nothing else. -/
theorem transits_unheard {es : ServerTrace} (unheard : ∀ x ∈ es, x.heard = false) :
    es.filterMap ServerEvent.transit? =
      (es.filterMap ServerEvent.sending?).map fun s => .said s.1 s.2.1 s.2.2 := by
  rw [List.map_filterMap]
  refine List.filterMap_congr fun x hx => ?_
  have hx' := unheard x hx
  cases x with
  | served | departed => cases hx'
  | _ => rfl

namespace Stage

/-! ## Whom a server serves -/

/-- All tasks of a server are for these clients. -/
structure Serves (P : String → Prop) (s : Server) : Prop where
  handling : ∀ (n : Nat) h, s.handlings[n]? = some h → P h.client
  forwarding : ∀ (n : Nat) f, s.forwardings[n]? = some f → P f.client

variable {P : String → Prop}

/-- A server that serves some addresses serves any more of them. -/
theorem Serves.mono {Q : String → Prop} {s : Server} (h : Serves P s) (hpq : ∀ a, P a → Q a) :
    Serves Q s :=
  ⟨fun n x hx => hpq _ (h.handling n x hx), fun n x hx => hpq _ (h.forwarding n x hx)⟩

/-- A server with the same tasks serves the same addresses. -/
private theorem Serves.of_same {s s' : Server} (h : Serves P s) (same : SameTasks s s') :
    Serves P s' where
  handling n x hx := h.handling n x (same.handlings ▸ hx)
  forwarding n x hx := h.forwarding n x (same.forwardings ▸ hx)

/-- Tasks started for an address that is served keep the server to those addresses. -/
private theorem Serves.startAll {client : String} (hp : P client) (subs : List Subscription)
    {s : Server}
    (h : Serves P s) : Serves P (subs.foldl (startOne client) s) := by
  -- By the streams that are started, each for this client.
  induction subs generalizing s with
  | nil => exact h
  | cons sub subs ih =>
    refine ih ⟨h.handling, fun n f hf => ?_⟩
    simp only [startOne, Std.ExtTreeMap.getElem?_insert] at hf
    split at hf
    · obtain rfl := Option.some.inj hf
      exact hp
    · exact h.forwarding n f hf

/-- A handling task put back keeps the server to the addresses it serves. -/
private theorem Serves.putHandling {st : Stage} (h : Serves P st.server) {n : Nat} {x : Handling}
    (hp : P x.client) (phase : Option Handling.Phase) :
    Serves P (st.putHandling n x phase).server where
  handling m y hy := by
    rw [handlings_putHandling] at hy
    split at hy
    · obtain ⟨phase', -, rfl⟩ := Option.map_eq_some_iff.1 hy
      exact hp
    · exact h.handling m y hy
  forwarding := h.forwarding

/-- A forwarding task put back keeps the server to the addresses it serves. -/
private theorem Serves.putForwarding {st : Stage} (h : Serves P st.server) {n : Nat}
    {x : Forwarding}
    (hp : P x.client) (phase : Option Forwarding.Phase) :
    Serves P (st.putForwarding n x phase).server where
  handling := h.handling
  forwarding m y hy := by
    rw [forwardings_putForwarding] at hy
    split at hy
    · obtain ⟨phase', -, rfl⟩ := Option.map_eq_some_iff.1 hy
      exact hp
    · exact h.forwarding m y hy

/-- Only requests bring in clients. -/
theorem Serves.step {st st' : Stage} {es : ServerTrace} (h : Serves P st.server)
    (next : Step st es st') (hp : ∀ n r, .requested n r ∈ es → P r.replyTo) :
    Serves P st'.server := by
  cases next.does with
  | @request _ e r =>
    refine ⟨fun n x hx => ?_, h.forwarding⟩
    simp only [Std.ExtTreeMap.getElem?_insert] at hx
    split at hx
    · obtain rfl := Option.some.inj hx
      exact hp st.server.nextTask r (by simp)
    · exact h.handling n x hx
  | @handle clock n x phase st₁ found steps =>
    obtain ⟨subs, same, -⟩ := advance_tasks (n := n) steps
    -- A task starts others only for the client that it is for itself.
    have hclient := h.handling _ _ found
    exact ((h.startAll hclient subs).of_same same).putHandling hclient phase
  | @forward n x o found steps =>
    obtain ⟨subs, same, -⟩ := pass_tasks (n := n) steps
    have hclient := h.forwarding _ _ found
    exact ((h.startAll hclient subs).of_same same).putForwarding hclient o.phase
  | around same => exact h.of_same ⟨same.handlings, same.forwardings, same.nextTask⟩
  | _ => exact ⟨h.handling, h.forwarding⟩

end Stage

/-! ## A client -/

/-- What a client has to do with the queues. -/
def Client.link (c : Client) : Link where
  address := c.address
  inbox := c.inbox
  departures := c.departures
  held := c.held

namespace Client

/-- A step that keeps the session, the queue and the handles in view keeps the link. -/
private theorem link_of_kept {c c' : Client} (kept : c.correlator.Kept c'.correlator)
    (inbox : c'.inbox = c.inbox) (departures : c'.departures = c.departures)
    (held : c'.held = c.held) : c'.link = c.link := by
  unfold link address
  rw [kept.replyTo, inbox, departures, held]

/-- A disconnect keeps a client's link. -/
private theorem link_disconnect (c : Client) (reason : String) :
    (c.disconnect reason).link = c.link := by
  obtain ⟨hinbox, hdepartures, -, hheld⟩ := c.disconnect_fields reason
  exact link_of_kept (c.disconnect_eq reason []).2.1 hinbox hdepartures hheld

/-- Accepting an envelope keeps a client's link. -/
private theorem link_accept (c : Client) (e : Envelope) : (c.accept e).link = c.link := by
  obtain ⟨c', heq, accepts⟩ := c.accepts e
  rw [heq]
  cases accepts <;> rfl

/-- Resolving a call keeps a client's link. -/
private theorem link_resolve (c : Client) (id : CallId) (r : Except Failure ClientValue) :
    (c.resolve id r).link = c.link :=
  link_of_kept (c.correlator.resolve_eq id r).2.2.1 rfl rfl rfl

/-- A submit keeps a client's link. -/
private theorem link_submit (c : Client) (method : String) (args : List PlainValue)
    (t : Transport) :
    (c.submit method args t).2.1.link = c.link :=
  link_of_kept (c.correlator.submit_eq method args t).2.1 rfl rfl rfl

/-- A collection keeps a client's link. -/
theorem link_collect (c : Client) (id : CallId) : (c.collect id).2.link = c.link :=
  link_of_kept (c.correlator.collect_eq id).2.1 rfl rfl rfl

/-- Dropping a ticket keeps a client's link. -/
theorem link_dropTicket (c : Client) (id : CallId) : (c.dropTicket id).link = c.link :=
  link_of_kept (c.correlator.dropTicket_eq id).2.1 rfl rfl rfl

/-- Giving a call up keeps a client's link. -/
theorem link_giveUp (c : Client) (id : CallId) : (c.giveUp id).link = c.link :=
  (link_dropTicket _ id).trans rfl

/-- What making a call does on the way to the queues. -/
private theorem submit_transport (c : Client) (method : String) (args : List PlainValue)
    {t : Transport}
    (clear : t.faults = []) (i : Nat) :
    (c.submitEvents method args t).filterMap (ClientEvent.transit? i) = [] ∧
        (c.submit method args t).2.2 = t ∨
      ∃ e, (c.submitEvents method args t).filterMap (ClientEvent.transit? i) =
          [.posted i e (t.send c.correlator.serverQueue e).1.isOk] ∧
        (c.submit method args t).2.2 = (t.send c.correlator.serverQueue e).2 := by
  obtain ⟨r, correlator, t', heq, submits⟩ := c.correlator.submits method args t
  unfold submitEvents Client.submit
  simp only [heq]
  cases submits with
  | barred | unwritable => exact .inl ⟨rfl, rfl⟩
  | @untaken e err _ _ _ refused =>
    -- A send that is refused without a fault leaves everything as it was.
    refine .inl ⟨rfl, ?_⟩
    rcases Transport.send_cases clear c.correlator.serverQueue e with
      ⟨_, ht⟩ | ⟨_, _, _, -, -, -, ht⟩
    · exact (congrArg Prod.snd refused).symm.trans (congrArg Prod.snd ht)
    · cases (congrArg Prod.fst refused).symm.trans (congrArg Prod.fst ht)
  | @sent e _ _ written taken =>
    refine .inr ⟨e, ?_, by rw [taken]⟩
    simp only [written, taken]
    rfl

end Client

namespace World

open Network

/-- The queues of a world, and who has to do with them. -/
def network (w : World) : Network where
  transport := w.transport
  links := w.clients.map Client.link
  cleanups := w.cleanups

variable {p : Ports} {w w' : World} {i : Nat} {c c' : Client} {t' : Transport}

/-- A client's link is at its own place in the network. -/
theorem link_at (found : w.clients[i]? = some c) : w.network.links[i]? = some c.link := by
  rw [network, List.getElem?_map, found]
  rfl

/-- A client's new session replaces the transport and its own link. -/
private theorem network_setSession (w : World) (i : Nat) (c' : Client) (t' : Transport) :
    (w.setSession i (c', t')).network =
      { w.network with transport := t', links := w.network.links.set i c'.link } := by
  simp [network, setSession, setClient, List.map_set]

/-- A link set to itself changes nothing. -/
private theorem links_set (found : w.clients[i]? = some c) (h : c'.link = c.link) :
    w.network.links.set i c'.link = w.network.links := by
  obtain ⟨hi, hc⟩ := List.getElem?_eq_some_iff.1 (link_at found)
  rw [h, ← hc]
  exact List.set_getElem_self hi

/-- A client that keeps its link lets the queues change only. -/
private theorem network_same (found : w.clients[i]? = some c) (h : c'.link = c.link)
    (t' : Transport) :
    (w.setSession i (c', t')).network = { w.network with transport := t' } := by
  rw [network_setSession, links_set found h]

/-- A client that keeps its link keeps the network. -/
theorem network_setClient (found : w.clients[i]? = some c) (h : c'.link = c.link) :
    (w.setClient i c').network = w.network :=
  network_same found h w.transport

/-- A mailbox that is read does not come to its end. -/
theorem receive_reads {t : Transport} {name : String} {id : MailboxId}
    (h : t.broker.Reads name id) : (t.receive id).1 ≠ .ended := by
  obtain ⟨m, hm, -, hl⟩ := h.mailbox
  unfold Transport.receive Broker.receive
  rw [hm]
  dsimp only
  split
  · simp
  -- The queue is live, so what does not parse is waited for.
  · rw [hl]
    simp

/-- A pump's step is steps of the network. -/
theorem steps_pump (wired : Wired p w.network) (found : w.clients[i]? = some c)
    (go : c.pump? w.transport = some (c', t')) :
    Steps p w.network ((c.pumpEvents w.transport).filterMap (ClientEvent.transit? i))
      (w.setSession i (c', t')).network := by
  have hlink := wired.link c.link (List.mem_of_getElem? (link_at found))
  have does := Client.pumps go
  generalize c.pumpEvents w.transport = es at does ⊢
  cases does with
  | @resolve id r =>
    rw [network_same found (c.link_resolve id r)]
    exact .refl
  | @accept m e _ idle reads letter =>
    rw [network_same found (c.link_accept e)]
    exact (Step.take (link_at found) reads letter).steps
  -- The queue that the client reads is there, so it does not end.
  | lose idle reads ended => exact absurd (congrArg Prod.fst ended) (receive_reads (hlink.reads _ reads))

/-- A closer's step is steps of the network. -/
theorem steps_closer (found : w.clients[i]? = some c) (home : c.correlator.serverQueue = p.queue)
    (go : c.closeReleased? w.transport = some (c', t')) :
    Steps p w.network ((c.closerEvents w.transport).filterMap (ClientEvent.transit? i))
      (w.setSession i (c', t')).network := by
  have hsame : ∀ demux, ({ c with demux } : Client).link = c.link := fun _ => rfl
  have does := Client.closes go
  generalize c.closerEvents w.transport = es at does ⊢
  -- A notice is posted if it can be written; otherwise nothing is seen of it.
  cases does with
  | @tell e =>
    rw [network_same found (hsame _), home]
    exact (Step.post (i := i) (e := e)).steps
  | hush =>
    rw [network_same found (hsame _)]
    exact .refl

/-- A departure watcher's step is steps of the network. -/
theorem steps_watch (wired : Wired p w.network) (found : w.clients[i]? = some c)
    (go : c.watch? w.transport = some (c', t')) :
    Steps p w.network [] (w.setSession i (c', t')).network := by
  have hlink := wired.link c.link (List.mem_of_getElem? (link_at found))
  obtain ⟨d, name, t₁, hd, hdepart, rfl, rfl⟩ := Client.watch?_eq go
  obtain ⟨⟨name', b₁⟩, hb, heq⟩ := Option.map_eq_some_iff.1 hdepart
  obtain ⟨rfl, rfl⟩ := Prod.mk.injEq .. ▸ heq
  have hother := hlink.watcher d hd
  -- The watcher is heard, then dropped, and the link loses it.
  have hfirst : Steps p w.network []
      { w.network with transport := { w.transport with broker := b₁ } } :=
    Step.steps (.watch hother (Broker.sameQueues_departure hb))
  have hsecond : Steps p w.network []
      { w.network with transport := { w.transport with broker := b₁.dropWatcher d } } :=
    hfirst.step (.watch hother (Broker.sameQueues_dropWatcher b₁ d))
  have hthird := hsecond.step (Step.blind (link_at found))
  rw [network_setSession, Client.link_disconnect]
  exact hthird

/-- A submit is steps of the network. -/
theorem steps_submit (wired : Wired p w.network) (found : w.clients[i]? = some c)
    (home : c.correlator.serverQueue = p.queue) (method : String) (args : List PlainValue) :
    Steps p w.network
      ((c.submitEvents method args w.transport).filterMap (ClientEvent.transit? i))
      (w.setSession i (c.submit method args w.transport).2).network := by
  have hsame := network_same found (c.link_submit method args w.transport)
    (c.submit method args w.transport).2.2
  have clear : w.transport.faults = [] := wired.clear
  -- A request that cannot be written does not reach the network.
  rcases c.submit_transport method args clear i with ⟨hes, ht⟩ | ⟨e, hes, ht⟩
  · have hgoal : (w.setSession i (c.submit method args w.transport).2).network = w.network := by
      refine hsame.trans ?_
      rw [ht]
      rfl
    rw [hes, hgoal]
    exact .refl
  · have hgoal : (w.setSession i (c.submit method args w.transport).2).network =
        { w.network with transport := (w.transport.send p.queue e).2 } := by
      refine hsame.trans ?_
      rw [ht, home]
    rw [hes, home, hgoal]
    exact (Step.post (i := i) (e := e)).steps

/-- What is left of a link when its client has stopped. -/
def left (l : Link) : Link :=
  { l with inbox := none, departures := none, held := false }

/-- A client that stops leaves its queue to be deleted. -/
private theorem steps_halt (wired : Wired p w.network) (found : w.clients[i]? = some c) :
    Steps p w.network [] {
      transport := (c.halt w.transport).2
      links := w.network.links.set i (left c.link)
      cleanups := w.network.cleanups ++ [c.address] } := by
  have hlink := wired.link c.link (List.mem_of_getElem? (link_at found))
  let n₁ : Network := {
    transport := w.transport
    links := w.network.links.set i (left c.link)
    cleanups := w.network.cleanups ++ [c.address] }
  -- In terms of the network the client leaves at once, and its queue is cleaned up later.
  have hleave : Steps p w.network [] n₁ := Step.steps (.leave (link_at found))
  -- The queue loses its reader first, and the watcher goes after that.
  let t₁ : Transport := c.inbox.elim w.transport w.transport.dropReader
  have hdeaf : Steps p w.network [] { n₁ with transport := t₁ } := by
    cases hm : c.inbox with
    | none =>
      have ht : t₁ = w.transport := by simp [t₁, hm]
      rw [ht]
      exact hleave
    | some m =>
      have ht : t₁ = w.transport.dropReader m := by simp [t₁, hm]
      have hreads := hlink.reads m hm
      rw [ht]
      refine hleave.step (.deafen ?_ ?_)
      · rintro rfl
        exact hlink.other (wired.sound.apart _ _ _ hreads.queue wired.server.queue)
      · -- Whoever else read this mailbox would have the same address.
        intro l hl hlm
        obtain ⟨j, hj⟩ := List.mem_iff_getElem?.1 hl
        rcases getElem?_set_cases hj with ⟨-, rfl⟩ | hj'
        · cases hlm
        · have hreads' := (wired.link l (List.mem_of_getElem? hj')).reads m hlm
          have haddress := wired.sound.apart _ _ _ hreads'.queue hreads.queue
          obtain rfl := wired.index hj' (link_at found) haddress
          rw [List.getElem?_set_self (List.getElem?_eq_some_iff.1 hj').1] at hj
          obtain rfl := Option.some.inj hj
          cases hlm
  cases hd : c.departures with
  | none =>
    have ht : (c.halt w.transport).2 = t₁ := by
      cases hm : c.inbox <;> simp [Client.halt, hd, hm, t₁]
    rw [ht]
    exact hdeaf
  | some d =>
    have ht : (c.halt w.transport).2 = t₁.dropWatcher d := by
      cases hm : c.inbox <;> simp [Client.halt, hd, hm, t₁]
    rw [ht]
    exact hdeaf.step (.watch (hlink.watcher d hd) (Broker.sameQueues_dropWatcher _ d))

/-- A client that is dropped leaves its queue to be deleted. -/
theorem steps_abandon (wired : Wired p w.network) (found : w.clients[i]? = some c) :
    Steps p w.network [] (w.dropClient i c true).network := by
  -- To the network a client that is abandoned is one that leaves, with its queue still to be
  -- deleted.
  have hlink : (c.abandon w.transport).1.link = left c.link :=
    (Client.link_disconnect _ _).trans rfl
  have hnetwork : (w.dropClient i c true).network = {
      transport := (c.halt w.transport).2
      links := w.network.links.set i (left c.link)
      cleanups := w.network.cleanups ++ [c.address] } := by
    have hset := network_setSession w i (c.abandon w.transport).1 (c.abandon w.transport).2
    rw [hlink] at hset
    unfold dropClient
    rw [if_pos rfl]
    show { World.network _ with cleanups := w.cleanups ++ [c.address] } = _
    rw [hset]
    rfl
  rw [hnetwork]
  exact steps_halt wired found

/-- A client that closes leaves its queue to be deleted, and deletes it at once. -/
theorem steps_close (wired : Wired p w.network) (found : w.clients[i]? = some c) :
    Steps p w.network [] (w.close i c).2.network := by
  -- Disconnecting touches the calls and the streams, and none of the queues.
  have hsame : ({ c.disconnect "client closed" with held := false } : Client).link =
      { c.link with held := false } := by
    have := Client.link_disconnect c "client closed"
    unfold Client.link at this ⊢
    injection this with h1 h2 h3 h4
    exact Link.mk.injEq .. ▸ ⟨h1, h2, h3, rfl⟩
  obtain ⟨hinbox, hdepartures, -, -⟩ := c.disconnect_fields "client closed"
  have haddress : ({ c.disconnect "client closed" with held := false } : Client).address =
      c.address := congrArg Link.address hsame
  have hhalt : (({ c.disconnect "client closed" with held := false } : Client).halt w.transport).2 =
      (c.halt w.transport).2 := by
    simp only [Client.halt, hinbox, hdepartures]
  -- So closing is halting, and then deleting the queue that halting left behind.
  have hnetwork : (w.close i c).2.network = {
      transport := ((c.halt w.transport).2.deleteQueue c.address).2
      links := w.network.links.set i (left c.link)
      cleanups := w.network.cleanups ++ [] } := by
    have hset := network_setSession w i (c.close w.transport).2.1 (c.close w.transport).2.2
    have hlink : (c.close w.transport).2.1.link = left c.link := by
      show Link.mk _ _ _ _ = _
      rw [show (c.close w.transport).2.1.address = c.address from haddress]
      rfl
    have ht : (c.close w.transport).2.2 =
        ((c.halt w.transport).2.deleteQueue c.address).2 := by
      rw [← hhalt, ← haddress]
      rfl
    refine hset.trans ?_
    rw [hlink, ht, List.append_nil]
  rw [hnetwork]
  exact (steps_halt wired found).step (.cleanup rfl)

end World

end StreamRpc
