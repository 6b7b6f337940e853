import StreamRpc.Proofs.World.Exchange

/-! # Worlds that are in order

Throughout a run the server and the clients have the queues that are theirs, the log agrees with the
queues, and the tasks of the server are for clients that there are.

* `World.Step.exchange`   a step of a world, as steps of its network
* `World.Run.inOrder`     worlds are in order
* `World.InOrder.origin`  who put an envelope on the server's queue
-/

namespace StreamRpc

open Network

namespace World

/-! ## Steps of the network -/

/-- The queues at which a server works. -/
structure Ported (config : ServerConfig) (p : Ports) (s : Server) : Prop where
  queue : p.queue = config.queue
  pattern : p.pattern = config.clientPattern
  inbox : s.inbox = some p.inbox
  departures : s.departures = some p.watcher

/-- A server with the same ports is at home in the same network. -/
private theorem Ported.of_same {config : ServerConfig} {p : Ports} {s s' : Server}
    (h : Ported config p s)
    (same : Stage.SamePorts s s') : Ported config p s' :=
  ⟨h.queue, h.pattern, same.inbox.trans h.inbox, same.departures.trans h.departures⟩

/-- A step is some steps of the network, and the server works at the same queues. -/
structure Exchanges (config : ServerConfig) (p : Ports) (w : World) (es : WorldTrace) (w' : World) :
    Prop where
  steps : Steps p w.network es.transits w'.network
  ported : ∀ s', w'.servers = [s'] → Ported config p s'

variable {config : ServerConfig} {p : Ports} {w w' : World} {s : Server} {tr es : WorldTrace}

/-- A step that leaves the server alone exchanges what its steps of the network do. -/
private theorem exchanges_apart (alone : w.Alone s) (ported : Ported config p s)
    (servers : w'.servers = w.servers) (steps : Steps p w.network es.transits w'.network) :
    Exchanges config p w es w' := by
  refine ⟨steps, fun s' hs => ?_⟩
  rw [servers, alone.one] at hs
  obtain rfl := List.singleton_inj.1 hs
  exact ported

/-- A step that leaves server and network alone exchanges nothing. -/
private theorem exchanges_still (alone : w.Alone s) (ported : Ported config p s)
    (servers : w'.servers = w.servers) (hes : es.transits = []) (network : w'.network = w.network) :
    Exchanges config p w es w' := by
  refine exchanges_apart alone ported servers ?_
  rw [hes, network]
  exact .refl

/-- A step of the server exchanges what it does to the transport. -/
private theorem exchanges_stage (alone : w.Alone s) {st : Stage}
    (ported : Ported config p st.server)
    {es : ServerTrace}
    (steps : Steps p w.network (es.filterMap ServerEvent.transit?)
      { w.network with transport := st.transport }) :
    Exchanges config p w (es.map .server) (w.setStage 0 st) := by
  refine ⟨?_, fun s' hs => ?_⟩
  · rw [WorldTrace.transits_map_server]
    exact steps
  · have hservers : (w.setStage 0 st).servers = [st.server] := by simp [World.setStage, alone.one]
    rw [hservers] at hs
    obtain rfl := List.singleton_inj.1 hs
    exact ported

/-- A task's step of the server exchanges what it tells the client it talks to. -/
private theorem exchanges_talk (alone : w.Alone s) (ported : Ported config p s) {st : Stage}
    {client : String} (known : ∃ l ∈ w.network.links, l.address = client) {es : ServerTrace}
    (talks : Stage.Talks (w.stage s) client es st) (unheard : ∀ x ∈ es, x.heard = false) :
    Exchanges config p w (es.map .server) (w.setStage 0 st) := by
  refine exchanges_stage alone (ported.of_same talks.ports) ?_
  rw [transits_unheard unheard]
  -- A step says nothing, or it says one thing to the client it works for.
  rcases talks.said with ⟨hes, ht⟩ | ⟨e, hes, ht⟩
  · rw [hes, ht]
    exact .refl
  · rw [hes, ht]
    exact Step.steps (.say known)

/-- An accepted envelope crosses the transport once. -/
private theorem transits_accept (st : Stage) (e : Envelope) :
    (st.acceptEvents e).filterMap ServerEvent.transit? = [.served e] := by
  unfold Stage.acceptEvents
  split <;> rfl

/-- Accepting an envelope changes neither the transport nor the server's ports. -/
theorem accept_fields (st : Stage) (e : Envelope) :
    (st.accept e).transport = st.transport ∧ Stage.SamePorts st.server (st.accept e).server := by
  unfold Stage.accept
  split <;> exact ⟨rfl, rfl, rfl, rfl, rfl⟩

/-- Of what a client does that crosses which its own events say. -/
private theorem transits_clientEvents {i : Nat} {c : Client} (found : w.clients[i]? = some c)
    (told : Client → ClientTrace) :
    (w.clientEvents i told).transits = (told c).filterMap (ClientEvent.transit? i) := by
  rw [clientEvents_eq found, WorldTrace.transits_map_client]

/-- A step of a call exchanges what it posts. -/
private theorem exchanges_call (alone : w.Alone s) (ported : Ported config p s)
    (wired : Wired p w.network) (home : ∀ c ∈ w.clients, c.correlator.serverQueue = p.queue)
    {n : Nat} (go : w.call? n = some w') : Exchanges config p w (w.callEvents n) w' := by
  obtain ⟨call, c, hcall, found, ⟨hp, rfl⟩ | ⟨id, till, hp, go⟩⟩ := call?_eq go
  -- A call that has not been sent yet puts its request on the way.
  · have hes : w.callEvents n =
        w.clientEvents call.client fun c => c.submitEvents call.method call.args w.transport := by
      simp [callEvents, hcall, clientEvents, found, hp]
    obtain ⟨calls, hw⟩ := w.sendCall_eq n call c
    rw [hw]
    refine exchanges_apart alone ported rfl ?_
    rw [hes, transits_clientEvents found]
    exact steps_submit wired found (home c (List.mem_of_getElem? found)) call.method call.args
  -- A call that has been sent only looks for its answer, and that passes no message on.
  · have hes : w.callEvents n = w.clientEvents call.client fun c => c.collectEvents id := by
      simp [callEvents, hcall, clientEvents, found, hp]
    have hnone : (w.callEvents n).transits = [] := by
      rw [hes, transits_clientEvents found]
      unfold Client.collectEvents
      split <;> rfl
    rcases awaitCall?_eq go with ⟨r, hr, rfl⟩ | ⟨hr, rfl⟩ | ⟨hr, rfl⟩
    · exact exchanges_still alone ported rfl hnone
        (network_setClient found ((c.link_collect id).trans rfl))
    · exact exchanges_still alone ported rfl hnone rfl
    · exact exchanges_still alone ported rfl hnone (network_setClient found (c.link_giveUp id))

/-- Whatever task runs, the network does the steps the events say, and the server keeps its ports.
-/
private theorem exchanges_task (alone : w.Alone s) (ported : Ported config p s)
    (wired : Wired p w.network) (home : ∀ c ∈ w.clients, c.correlator.serverQueue = p.queue)
    (serves : Stage.Serves (fun a => ∃ l ∈ w.network.links, l.address = a) s) {t : Task}
    (go : w.run? t = some w') : Exchanges config p w (w.events t) w' := by
  -- A task of a client is one of the steps of its link; a task of the server is one of reading the
  -- queue, hearing of a departure, or at most one message to a client it knows of.
  cases t with
  | closer i =>
    obtain ⟨c, c', t', found, hstep, rfl⟩ := client?_eq go
    refine exchanges_apart alone ported rfl ?_
    simp only [events, transits_clientEvents found]
    exact steps_closer found (home c (List.mem_of_getElem? found)) hstep
  | pump i =>
    obtain ⟨c, c', t', found, hstep, rfl⟩ := client?_eq go
    refine exchanges_apart alone ported rfl ?_
    simp only [events, transits_clientEvents found]
    exact steps_pump wired found hstep
  | watch i =>
    obtain ⟨c, c', t', found, hstep, rfl⟩ := client?_eq go
    exact exchanges_apart alone ported rfl (steps_watch wired found hstep)
  | call n => exact exchanges_call alone ported wired home go
  | cleanup =>
    obtain ⟨queue, cleanups, hc, rfl⟩ := cleanup?_eq go
    have found : w.network.cleanups = [] ++ queue :: cleanups := hc
    exact exchanges_apart alone ported rfl (Step.steps (.cleanup found))
  | serve k =>
    obtain ⟨st, st', found, hstep, rfl⟩ := server?_eq go
    obtain ⟨rfl, rfl⟩ := alone.stage?_eq found
    simp only [World.events, alone.events]
    obtain ⟨inbox, hinbox, ⟨e, t, hr, hes, rfl⟩ | ⟨t, hr, -⟩⟩ := Stage.serve_eq hstep
    · obtain rfl : inbox = p.inbox := Option.some.inj (hinbox.symm.trans ported.inbox)
      obtain ⟨ht, same⟩ := accept_fields { w.stage s with transport := t } e
      rw [hes]
      refine exchanges_stage alone (ported.of_same same) ?_
      rw [transits_accept, ht]
      exact Step.steps (.serve hr)
    · -- The server's queue is read, so it is there.
      obtain rfl : inbox = p.inbox := Option.some.inj (hinbox.symm.trans ported.inbox)
      exact absurd (congrArg Prod.fst hr) (receive_reads wired.server)
  | departure k =>
    obtain ⟨st, st', found, hstep, rfl⟩ := server?_eq go
    obtain ⟨rfl, rfl⟩ := alone.stage?_eq found
    simp only [World.events, alone.events]
    obtain ⟨watcher, client, t, hwatcher, hdepart, hes, rfl⟩ := Stage.depart_eq hstep
    obtain rfl : watcher = p.watcher := Option.some.inj (hwatcher.symm.trans ported.departures)
    rw [hes]
    refine exchanges_stage alone (ported.of_same ⟨rfl, rfl, rfl, rfl⟩) ?_
    exact Step.steps (.depart hdepart)
  | handle k n =>
    obtain ⟨st, st', found, hstep, rfl⟩ := server?_eq go
    obtain ⟨rfl, rfl⟩ := alone.stage?_eq found
    obtain ⟨h, hh, -⟩ := Option.bind_eq_some_iff.1 hstep
    simp only [World.events, alone.events, hh, Option.elim]
    obtain ⟨phase, st₁, hadvance, rfl⟩ := Stage.handle_eq hh hstep
    -- The request came from a link of the network, so the reply goes to one.
    have talks := Stage.advance_talks (n := n) hadvance
    have hclient := serves.handling n h hh
    refine exchanges_talk alone ported hclient ⟨?_, talks.said⟩ (Stage.heard_handling _ _ _)
    exact ⟨talks.ports.router, talks.ports.queue, talks.ports.inbox, talks.ports.departures⟩
  | forward k n =>
    obtain ⟨st, st', retires, found, hstep, rfl⟩ := forward?_eq alone.quiet go
    obtain ⟨rfl, rfl⟩ := alone.stage?_eq found
    obtain ⟨f, hf, -⟩ := Option.bind_eq_some_iff.1 hstep
    simp only [World.events, alone.events, hf, Option.elim]
    obtain ⟨o, hgo, -, rfl⟩ := Stage.forward_eq hf hstep
    -- The stream is passed on to a client whose request opened it, which is a link of the network.
    have talks := Stage.pass_talks (n := n) hgo
    have hclient := serves.forwarding n f hf
    refine exchanges_talk alone ported hclient ⟨?_, talks.said⟩ (Stage.heard_forwarding _ _ _)
    exact ⟨talks.ports.router, talks.ports.queue, talks.ports.inbox, talks.ports.departures⟩

/-- A client that comes joins the network with two queues of its own. -/
private theorem exchanges_connect (alone : w.Alone s) (ported : Ported config p s)
    (wired : Wired p w.network) {settings : ClientConfig} {token : UInt64} {n : Nat}
    (go : w.connect settings token = (.ok n, w'))
    (covered : addressMatches config.clientPattern (settings.replyAddress token) = true)
    (apart : ∀ c ∈ w.clients, c.address ≠ settings.replyAddress token) :
    Exchanges config p w [] w' := by
  obtain ⟨c, t', hc, rfl⟩ := connect_eq go
  obtain ⟨t₁, t₂, inbox, departures, h1, h2, h3, rfl⟩ := Client.connect_eq hc
  -- Without faults, connecting makes both queues and the watcher.
  have clear : w.transport.faults = [] := wired.clear
  obtain ⟨hfree, rfl, rfl, rfl⟩ := Transport.join_eq clear h1 h2 h3
  refine exchanges_apart alone ported rfl ?_
  have covered' : addressMatches p.pattern (settings.replyAddress token) = true := by
    rwa [ported.pattern]
  have apart' : ∀ l ∈ w.network.links, l.address ≠ settings.replyAddress token := by
    intro l hl
    obtain ⟨c, hc, rfl⟩ := List.mem_map.1 hl
    exact apart c hc
  -- What the new client holds is what the new link holds.
  have hjoin : Steps p w.network [] { w.network with
      transport := {
        broker := w.transport.broker.joined (settings.replyAddress token) settings.serverQueue }
      links := w.network.links ++ [{
        address := settings.replyAddress token
        inbox := some ⟨w.transport.broker.nextMailbox⟩
        departures := some ⟨w.transport.broker.nextWatcher⟩
        held := true }] } := Step.steps (.join hfree covered' apart')
  unfold network at hjoin ⊢
  rw [List.map_append]
  exact hjoin

/-- A step of a world, as steps of its network. -/
theorem Step.exchange (alone : w.Alone s) (ported : Ported config p s)
    (wired : Wired p w.network) (home : ∀ c ∈ w.clients, c.correlator.serverQueue = p.queue)
    (serves : Stage.Serves (fun a => ∃ l ∈ w.network.links, l.address = a) s)
    (next : Step config tr w es w') : Exchanges config p w es w' := by
  -- Only tasks, calls and the ends of clients touch the queues; whatever else the program does
  -- leaves every link as it is.
  cases next with
  | task go => exact exchanges_task alone ported wired home serves go
  | connect go queue covered apart => exact exchanges_connect alone ported wired go covered apart
  | @submit i c found method args =>
    obtain ⟨calls, hw⟩ := w.submit_eq i c method args
    rw [hw]
    refine exchanges_apart alone ported rfl ?_
    rw [transits_clientEvents found]
    exact steps_submit wired found (home c (List.mem_of_getElem? found)) method args
  | call unsent => exact exchanges_still alone ported rfl rfl rfl
  | dropCall n =>
    obtain hw | ⟨call, -, hw | ⟨id, c, found, hw⟩⟩ := w.dropCall_eq n
    · rw [hw]
      exact exchanges_still alone ported rfl rfl rfl
    · rw [hw]
      exact exchanges_still alone ported rfl rfl rfl
    · rw [hw]
      exact exchanges_still alone ported rfl rfl (network_setClient found (c.link_dropTicket id))
  | close found => exact exchanges_apart alone ported rfl (steps_close wired found)
  | dropClient found => exact exchanges_apart alone ported rfl (steps_abandon wired found)
  | @read i h given max? =>
    have hnone : WorldTrace.transits
        ((w.readHandle i h max?).1.map fun n => .client i (.yielded h n)) = [] := by
      simp [WorldTrace.transits, List.filterMap_map, Function.comp_def, WorldEvent.transit?,
        ClientEvent.transit?]
    obtain hw | ⟨c, k, found, hw⟩ := w.readHandle_eq i h max?
    · exact exchanges_still alone ported (by rw [hw]) hnone (by rw [hw])
    · rw [hw] at hnone ⊢
      exact exchanges_still alone ported rfl hnone (network_setClient found rfl)
  | @dropHandle i h given =>
    obtain hw | ⟨c, found, hw⟩ := w.dropHandle_eq i h
    · rw [hw]
      exact exchanges_still alone ported rfl rfl rfl
    · rw [hw]
      exact exchanges_still alone ported rfl rfl (network_setClient found rfl)
  | feed feeds => exact exchanges_still alone ported rfl rfl rfl
  | clock clock => exact exchanges_still alone ported rfl rfl rfl
  | methods router =>
    refine ⟨.refl, fun s' hs => ?_⟩
    have hservers : (w.setRouter router).servers = [{ s with router }] := by
      simp [setRouter, alone.one]
    rw [hservers] at hs
    obtain rfl := List.singleton_inj.1 hs
    exact ⟨ported.queue, ported.pattern, ported.inbox, ported.departures⟩

/-! ## Order -/

/-- The queues are as they should be, and so is everything on them. -/
structure InOrder (config : ServerConfig) (p : Ports) (tr : WorldTrace) (w : World) (s : Server) :
    Prop where
  alone : w.Alone s
  ported : Ported config p s
  wired : Wired p w.network
  ledger : Ledger p tr.transits w.network
  serves : Stage.Serves (fun a => ∃ l ∈ w.network.links, l.address = a) s

/-- An event is in a client's trace when the whole trace has it as that client's. -/
theorem mem_client {x : ClientEvent} {i : Nat} : x ∈ tr.client i ↔ .client i x ∈ tr := by
  constructor
  · intro h
    obtain ⟨y, hy, heq⟩ := List.mem_filterMap.1 h
    cases y with
    | server y => cases heq
    | client j y =>
      simp only [WorldEvent.client?] at heq
      -- The events of another client are left out.
      split at heq
      · next hij =>
        obtain rfl := Option.some.inj heq
        exact hij ▸ hy
      · cases heq
  · intro h
    exact List.mem_filterMap.2 ⟨_, h, by simp [WorldEvent.client?]⟩

/-- An event is in the server's trace when the whole trace has it as the server's. -/
theorem mem_server {x : ServerEvent} : x ∈ tr.server ↔ .server x ∈ tr := by
  constructor
  · intro h
    obtain ⟨y, hy, heq⟩ := List.mem_filterMap.1 h
    cases y with
    | server y =>
      obtain rfl := Option.some.inj heq
      exact hy
    | client j y => cases heq
  · intro h
    exact List.mem_filterMap.2 ⟨_, h, rfl⟩

/-- A client put this on the server's queue: it made a call, or said which streams it no longer
    wants. -/
def Origin (tr : ClientTrace) (c : Client) (e : Envelope) : Prop :=
  (∃ id method args, .asked id method args e ∈ tr ∧
      (c.correlator.request id method args).toEnvelope = .ok e) ∨
    ∃ ids, .told ids e true ∈ tr ∧ (ClientMessage.closed ids).toEnvelope = .ok e

/-- Whatever is on the server's queue was put there by some client. -/
private theorem Run.origin {w₀ : World} (run : Run config w₀ tr w) {e : Envelope}
    (h : e ∈ Transit.allPosted tr.transits) :
    ∃ i c, w.clients[i]? = some c ∧ Origin (tr.client i) c e := by
  obtain ⟨sessions, hnone⟩ := run.clients
  obtain ⟨y, hy, hposted⟩ := List.mem_filterMap.1 h
  obtain ⟨x, hx, htransit⟩ := List.mem_filterMap.1 hy
  cases x with
  -- Only clients put something on the server's queue.
  | server x => cases x <;> cases htransit <;> cases hposted
  | client i x =>
    have hmem : x ∈ tr.client i := mem_client.2 hx
    -- Something is told of this client, so it is one of the world.
    have hi : i < w.clients.length := by
      refine Nat.lt_of_not_le fun hle => ?_
      rw [hnone i hle] at hmem
      cases hmem
    have found := List.getElem?_eq_getElem hi
    obtain ⟨c₀, _, _, _, _, -, up, crun⟩ := sessions i _ found
    have hmeans := crun.means (Client.fresh_of_connect up) x hmem
    refine ⟨i, _, found, ?_⟩
    -- Of what a client tells, requests and accepted cancellations were put on the queue; the rest
    -- was not.
    cases x with
    | asked id method args e' =>
      cases htransit
      obtain rfl := Option.some.inj hposted
      exact .inl ⟨id, method, args, hmem, hmeans⟩
    | told ids e' accepted =>
      cases htransit
      cases accepted with
      | false => cases hposted
      | true =>
        obtain rfl := Option.some.inj hposted
        exact .inr ⟨ids, hmem, hmeans⟩
    | took e' =>
      cases htransit
      cases hposted
    | collected id r => cases htransit
    | untold ids => cases htransit
    | yielded g n => cases htransit

/-- An envelope was served when the log has it. -/
theorem mem_allServed {log : List Transit} {e : Envelope} :
    e ∈ Transit.allServed log ↔ .served e ∈ log := by
  constructor
  · intro h
    obtain ⟨x, hx, heq⟩ := List.mem_filterMap.1 h
    cases x with
    | served e' =>
      obtain rfl := Option.some.inj heq
      exact hx
    | _ => cases heq
  · exact fun h => List.mem_filterMap.2 ⟨_, h, rfl⟩

/-- Whatever the server took off its queue was put there by some client. -/
theorem Run.of_served {w₀ : World} (run : Run config w₀ tr w)
    (ledger : Ledger p tr.transits w.network) {e : Envelope} (h : .served e ∈ tr.server) :
    ∃ i c, w.clients[i]? = some c ∧ Origin (tr.client i) c e := by
  refine run.origin ?_
  rw [ledger.posted]
  refine List.mem_append_left _ (mem_allServed.2 ?_)
  exact List.mem_filterMap.2 ⟨_, mem_server.1 h, rfl⟩

/-- A step of the network forgets no address. -/
private theorem addresses_step {n n' : Network} {log : List Transit}
    (next : Network.Step p n log n')
    {a : String} (h : ∃ l ∈ n.links, l.address = a) : ∃ l ∈ n'.links, l.address = a := by
  have hset : ∀ {i : Nat} {l : Link} (l' : Link), n.links[i]? = some l → l'.address = l.address →
      ∃ x ∈ n.links.set i l', x.address = a := fun l' found haddress =>
    (mem_addresses (map_set found haddress) a).2 h
  -- A link may lose its queues, and links may come, but no step takes one away.
  cases next with
  | blind found => exact hset _ found rfl
  | leave found => exact hset _ found rfl
  | join free covered apart =>
    obtain ⟨l, hl, hla⟩ := h
    exact ⟨l, List.mem_append_left _ hl, hla⟩
  | _ => exact h

/-- No steps of the network forget an address. -/
private theorem addresses_steps {n n' : Network} {log : List Transit} (all : Steps p n log n')
    {a : String} (h : ∃ l ∈ n.links, l.address = a) : ∃ l ∈ n'.links, l.address = a := by
  induction all with
  | refl => exact h
  | step _ next ih => exact addresses_step next ih

/-- A step of the world keeps its parts in order. -/
private theorem Step.inOrder {w₀ : World} (run : Run config w₀ tr w) (h : InOrder config p tr w s)
    (next : Step config tr w es w') : ∃ s', InOrder config p (tr ++ es) w' s' := by
  have home : ∀ c ∈ w.clients, c.correlator.serverQueue = p.queue := by
    intro c hc
    obtain ⟨i, hi⟩ := List.mem_iff_getElem?.1 hc
    exact ((run.clients.1 i c hi).home).trans h.ported.queue.symm
  -- The network: it stays wired, and the ledger goes on.
  have exchanges := next.exchange h.alone h.ported h.wired home h.serves
  obtain ⟨wired', ledger'⟩ := h.ledger.steps h.wired exchanges.steps
  rw [← WorldTrace.transits_append] at ledger'
  obtain ⟨s', alone', hstep⟩ := next.server h.alone
  refine ⟨s', alone', exchanges.ported s' alone'.one, wired', ledger', ?_⟩
  have hserves : Stage.Serves (fun a => ∃ l ∈ w'.network.links, l.address = a) s :=
    h.serves.mono fun a ha => addresses_steps exchanges.steps ha
  have hserves' : Stage.Serves _ (w.stage s).server := hserves
  -- The server: a request that it takes up came off its queue, so by the ledger a client put it
  -- there, and its reply queue is the address of this client.
  refine hserves'.step hstep fun n r hr => ?_
  obtain ⟨-, e, hes, he⟩ := hstep.of_requested hr
  have hserved : .served e ∈ (tr ++ es).server := by
    rw [WorldTrace.server_append, hes]
    exact List.mem_append_right _ List.mem_cons_self
  obtain ⟨i, c, found, horigin⟩ := (run.step next).of_served ledger' hserved
  refine ⟨c.link, List.mem_of_getElem? (link_at found), ?_⟩
  rcases horigin with ⟨id, method, args, -, hw⟩ | ⟨ids, -, hw⟩
  · have := ClientMessage.ofEnvelope_toEnvelope hw
    rw [he] at this
    obtain rfl := ClientMessage.request.inj (Except.ok.inj this)
    rfl
  · have := ClientMessage.ofEnvelope_toEnvelope hw
    rw [he] at this
    cases Except.ok.inj this

/-- The queues at which a server starts. -/
def portsOf (config : ServerConfig) : Ports where
  queue := config.queue
  pattern := config.clientPattern
  inbox := ⟨0⟩
  watcher := ⟨0⟩

/-- A launch on a fresh transport joins the server's queue and watches its clients. -/
private theorem launch_eq {router : Router} {t' : Transport}
    (up : Server.launch router config {} = (.ok s, t')) :
    Ported config (portsOf config) s ∧
      t' = { broker := Broker.joined {} config.queue config.clientPattern } ∧
      s.handlings = ∅ ∧ s.forwardings = ∅ := by
  dsimp only [Server.launch] at up
  -- The three steps of starting: make the queue, read it, watch for departures.
  split at up
  · simp at up
  · next t₁ h1 =>
    split at up
    · simp at up
    · next inbox t₂ h2 =>
      split at up
      · simp at up
      · next departures t₃ h3 =>
        obtain ⟨hs, rfl⟩ := Prod.mk.injEq .. ▸ up
        obtain rfl := Except.ok.inj hs
        obtain ⟨-, rfl, rfl, rfl⟩ := Transport.join_eq rfl h1 h2 h3
        exact ⟨⟨rfl, rfl, rfl, rfl⟩, rfl, rfl, rfl⟩

/-- A world that has just been launched is in order. -/
private theorem inOrder_start {router : Router} {n : Nat} {w₀ : World}
    (up : ({} : World).launch router config = (.ok n, w₀)) :
    ∃ s, InOrder config (portsOf config) [] w₀ s := by
  obtain ⟨s, t', hl, alone, rfl⟩ := launch_alone up
  obtain ⟨ported, rfl, hhandlings, hforwardings⟩ := launch_eq hl
  let b : Broker := Broker.joined {} config.queue config.clientPattern
  -- The server alone has started: one queue, one watcher, no client and no letter.
  have hwatcher : b.watchers[0]? = some { pattern := config.clientPattern } :=
    (Broker.watchers_joined {} config.queue config.clientPattern 0).trans (if_pos rfl)
  refine ⟨s, alone, ported, ?_, ?_, ?_⟩
  · exact {
      clear := rfl
      sound := Broker.sound_empty.joined config.queue config.clientPattern
      server := Broker.reads_joined {} config.queue config.clientPattern
      watcher := ⟨_, hwatcher, rfl, rfl⟩
      apart := List.nodup_nil
      link := fun l hl => by cases hl
      cleanups := fun a ha => by cases ha }
  -- Nothing has been said, so there is nothing in any queue.
  · have hletters : b.letters ⟨0⟩ = [] :=
      (Broker.letters_joined Broker.sound_empty config.queue config.clientPattern ⟨0⟩).trans
        (by simp [Broker.letters])
    exact {
      posted := hletters.symm
      said := fun i l m hl => by cases hl
      took := fun i l hl => by cases hl
      beyond := fun i hi => rfl
      refused := fun l hl => by cases hl
      unposted := fun i e he => by cases he
      known := fun a e accepted he => by cases he
      departed := fun x hx a => by
        obtain rfl := Option.some.inj (hwatcher.symm.trans hx)
        constructor
        · intro ha
          cases ha
        · rintro ⟨⟨l, hl, -⟩, -⟩
          cases hl
      last := fun pre a post heq => by cases pre <;> cases heq }
  · exact ⟨fun n h hh => by simp [hhandlings] at hh, fun n f hf => by simp [hforwardings] at hf⟩

/-- Worlds are in order. -/
theorem Run.inOrder {w₀ : World} (run : Run config w₀ tr w) :
    ∃ s, InOrder config (portsOf config) tr w s := by
  induction run with
  | start up => exact inOrder_start up
  | step run next ih =>
    obtain ⟨s, h⟩ := ih
    exact next.inOrder run h

end World

end StreamRpc
