import IodriversBase.Forward
import IodriversBase.Objects
import IodriversBase.Worlds

namespace IodriversBase

open Loop

variable {Ω : Type}

/-- Two drivers over descriptors: their streams, extractors and listeners, and the other arguments
of `forward`. -/
structure Forwarding (Ω : Type) where
  rawMode : Bool
  stream1 : Backed Ω
  stream2 : Backed Ω
  extract1 : Extract Ω
  extract2 : Extract Ω
  listeners1 : List (ℕ × IOListener Ω)
  listeners2 : List (ℕ × IOListener Ω)
  timeout1 : Time
  timeout2 : Time
  bufferSize : ℕ

/-- The streams have the numbers 1 and 2. -/
def Forwarding.forwarder (os : DatagramOs Ω) (f : Forwarding Ω) : Forwarder (Objects Ω) where
  rawMode := f.rawMode
  extract1 := f.extract1.onObjects
  extract2 := f.extract2.onObjects
  io1 := f.stream1.ports os 1 f.listeners1
  io2 := f.stream2.ports os 2 f.listeners2
  timeout1 := f.timeout1
  timeout2 := f.timeout2
  bufferSize := f.bufferSize
  select reads t w :=
    let r := os.select reads [] t w.os
    (r.1.map Prod.fst, w.withOs r.2)

def Backed.Listens (b : Backed Ω) (id : ℕ) (w : Objects Ω) : Prop :=
  match b with
  | .unixServerStream _ => w.client id = none
  | _ => False

variable {os : DatagramOs Ω} {b : Backed Ω} {id k : ℕ} {fd : ℤ} {w w' w'' : Objects Ω}

/-- What one direction keeps, from stream `j` to the others: the client of `j`, once it has one, and
the clients of the others. -/
structure KeepsClients (j : ℕ) (w w' : Objects Ω) : Prop where
  stays : ∀ fd, w.client j = some fd → w'.client j = some fd
  others : ∀ k, k ≠ j → w'.client k = w.client k

theorem KeepsClients.of_eq {j : ℕ} (h : w'.client = w.client) : KeepsClients j w w' where
  stays fd hfd := by rw [h, hfd]
  others k _ := by rw [h]

theorem KeepsClients.trans {j : ℕ} (h : KeepsClients j w w') (h' : KeepsClients j w' w'') :
    KeepsClients j w w'' where
  stays fd hfd := h'.stays fd (h.stays fd hfd)
  others k hk := (h'.others k hk).trans (h.others k hk)

theorem KeepsClients.withServer {s : Server Ω}
    (h : ∀ fd, w.client id = some fd → s.client = some fd) :
    KeepsClients id w (w.withServer id s) where
  stays fd hfd := by
    change Function.update w.client id s.client id = some fd
    rw [Function.update_self, h fd hfd]
  others k hk := Function.update_of_ne hk _ _

theorem withServer_client {s : Server Ω} (h : s.client = w.client id) :
    (w.withServer id s).client = w.client := by
  change Function.update w.client id s.client = w.client
  rw [h, Function.update_eq_self]

theorem Backed.read_clients (n : ℕ) (w : Objects Ω) :
    KeepsClients id w ((b.stream os id).read n w).2 := by
  cases b with
  | unixServerStream x => exact .withServer fun fd hfd => UnixServerStream.read_client hfd n
  | _ => exact .of_eq rfl

theorem Backed.waitRead_clients (t : Time) (w : Objects Ω) :
    KeepsClients id w ((b.stream os id).waitRead t w).2 := by
  cases b with
  | unixServerStream x => exact .withServer fun fd hfd => UnixServerStream.waitRead_client hfd t
  | _ => exact .of_eq rfl

theorem Backed.write_client (data : Bytes) (w : Objects Ω) :
    ((b.stream os id).write data w).2.client = w.client := by
  cases b with
  | unixServerStream x => exact withServer_client (UnixServerStream.write_client data _)
  | _ => rfl

theorem Backed.waitWrite_client (t : Time) (w : Objects Ω) :
    ((b.stream os id).waitWrite t w).2.client = w.client := by
  cases b with
  | unixServerStream x => exact withServer_client (UnixServerStream.waitWrite_client t _)
  | _ => rfl

variable {listeners : List (ℕ × IOListener Ω)}

theorem notifyRead_client (data : Bytes) (w : Objects Ω) :
    ((b.ports os id listeners).notifyRead data w).client = w.client := by
  refine Ports.notifyRead_rule (P := fun w' : Objects Ω => w'.client = w.client) ?_ rfl
  intro l hl w' hw'
  obtain ⟨l', -, rfl⟩ := List.mem_map.mp hl
  exact hw'

theorem notifyWrite_client (data : Bytes) (w : Objects Ω) :
    ((b.ports os id listeners).notifyWrite data w).client = w.client := by
  refine Ports.notifyWrite_rule (P := fun w' : Objects Ω => w'.client = w.client) ?_ rfl
  intro l hl w' hw'
  obtain ⟨l', -, rfl⟩ := List.mem_map.mp hl
  exact hw'

theorem Backed.ports_keepsReading :
    (b.ports os id listeners).KeepsReading (KeepsClients id) where
  refl _ := .of_eq rfl
  trans := .trans
  now _ := .of_eq rfl
  notifyRead data w := .of_eq (notifyRead_client data w)
  read := by
    intro st n w r w' hst hread
    obtain rfl := Option.some.inj hst
    rw [← (Prod.mk.inj hread).2]
    exact b.read_clients n w
  waitRead := by
    intro st t w r w' hst hwait
    obtain rfl := Option.some.inj hst
    rw [← (Prod.mk.inj hwait).2]
    exact b.waitRead_clients t w

theorem Backed.ports_keepsWriting (j : ℕ) :
    (b.ports os id listeners).KeepsWriting (KeepsClients j) where
  refl _ := .of_eq rfl
  trans := .trans
  now _ := .of_eq rfl
  writeThrew := by
    intro st data w x w' hst hwrite
    obtain rfl := Option.some.inj hst
    rw [← (Prod.mk.inj hwrite).2]
    exact .of_eq (b.write_client data w)
  told := by
    intro st data w n w' hst hwrite
    obtain rfl := Option.some.inj hst
    refine .of_eq ((notifyWrite_client _ w').trans ?_)
    rw [← (Prod.mk.inj hwrite).2]
    exact b.write_client data w
  waitWrite := by
    intro st t w r w' hst hwait
    obtain rfl := Option.some.inj hst
    rw [← (Prod.mk.inj hwait).2]
    exact .of_eq (b.waitWrite_client t w)

theorem Backed.descriptor_of_eq (h : w'.client id = w.client id) :
    (b.stream os id).getFileDescriptor w' = (b.stream os id).getFileDescriptor w := by
  cases b with
  | unixServerStream x =>
    change UnixServerStream.getFileDescriptor _ (w'.server id) =
      UnixServerStream.getFileDescriptor _ (w.server id)
    simp only [UnixServerStream.getFileDescriptor, Objects.server, h]
  | _ => rfl

theorem Backed.descriptor_of_keeps (h : KeepsClients id w w') (hb : ¬ b.Listens id w) :
    (b.stream os id).getFileDescriptor w' = (b.stream os id).getFileDescriptor w := by
  cases b with
  | unixServerStream x =>
    obtain ⟨fd, hfd⟩ := Option.ne_none_iff_exists'.mp hb
    exact Backed.descriptor_of_eq ((h.stays fd hfd).trans hfd.symm)
  | _ => rfl

theorem Backed.listens_of_eq (h : w'.client id = w.client id) (hb : ¬ b.Listens id w) :
    ¬ b.Listens id w' := by
  cases b with
  | unixServerStream x =>
    change w'.client id ≠ none
    rw [h]
    exact hb
  | _ => exact hb

/-- At a call of `select` its descriptors are those that the drivers read from. -/
def Forwarder.WaitsWhereItReads {ω : Type} (f : Forwarder ω) (fd1 fd2 : ℤ) (s : ForwardState ω) :
    Prop :=
  f.eof s.world = .ok false →
    getFileDescriptor f.io1 s.world = fd1 ∧ getFileDescriptor f.io2 s.world = fd2

/-- One more time round the loop. -/
def Forwarder.Round {ω : Type} (f : Forwarder ω) (fd1 fd2 : ℤ) (s t : ForwardState ω) : Prop :=
  ∃ fuel, Step (f.iteration fuel fd1 fd2) s t

/-- Neither of the streams that the next wake-up serves waits for its client. -/
structure Forwarding.ServesClients (os : DatagramOs Ω) (f : Forwarding Ω) (fd1 fd2 : ℤ)
    (s : ForwardState (Objects Ω)) : Prop where
  first : InSet fd1 ((f.forwarder os).select [fd1, fd2] ⟨10, 0⟩ s.world).1 →
    ¬ f.stream1.Listens 1 s.world
  second : InSet fd2 ((f.forwarder os).select [fd1, fd2] ⟨10, 0⟩ s.world).1 →
    ¬ f.stream2.Listens 2 s.world

variable {f : Forwarding Ω} {fd1 fd2 : ℤ} {s t : ForwardState (Objects Ω)} {fuel : ℕ}

theorem Extract.onObjects_keeps (E : Extract Ω) (j : ℕ) :
    E.onObjects.Keeps (KeepsClients j) := fun _ _ => .of_eq rfl

theorem Forwarding.pass1_clients (h : (f.forwarder os).Pass1 fuel s t) :
    KeepsClients 1 s.world t.world := by
  obtain rfl | ⟨size, hdata⟩ := h
  · exact .of_eq rfl
  · exact forwardData_sides f.stream1.ports_keepsReading (f.extract1.onObjects_keeps 1)
      (f.stream2.ports_keepsWriting 1) hdata

theorem Forwarding.pass2_clients (h : (f.forwarder os).Pass2 fuel s t) :
    KeepsClients 2 s.world t.world := by
  obtain rfl | ⟨size, hdata⟩ := h
  · exact .of_eq rfl
  · exact forwardData_sides f.stream2.ports_keepsReading (f.extract2.onObjects_keeps 2)
      (f.stream1.ports_keepsWriting 2) hdata

/-- A round that serves no server without a client leaves the descriptors as they are. -/
theorem Forwarding.round_descriptors (h : (f.forwarder os).Round fd1 fd2 s t)
    (hserves : f.ServesClients os fd1 fd2 s) :
    getFileDescriptor (f.forwarder os).io1 t.world =
        getFileDescriptor (f.forwarder os).io1 s.world ∧
      getFileDescriptor (f.forwarder os).io2 t.world =
        getFileDescriptor (f.forwarder os).io2 s.world := by
  obtain ⟨fuel, hstep⟩ := h
  obtain ⟨-, s₁, hpass1, hpass2, hout1, hout2⟩ := Forwarder.iteration_again hstep
  have hfirst := Forwarding.pass1_clients hpass1
  have hsecond := Forwarding.pass2_clients hpass2
  generalize hselect : (f.forwarder os).select [fd1, fd2] ⟨10, 0⟩ s.world = selected
    at hfirst hout1 hout2
  have hclients : selected.2.client = s.world.client := by
    rw [← hselect]
    rfl
  constructor
  · -- the second direction leaves the first stream alone
    refine (f.stream1.descriptor_of_eq (hsecond.others 1 (by decide))).trans ?_
    by_cases hin : InSet fd1 selected.1
    · have hlistens := hserves.first (by rwa [hselect])
      exact (f.stream1.descriptor_of_keeps hfirst (f.stream1.listens_of_eq
        (congrFun hclients 1) hlistens)).trans (f.stream1.descriptor_of_eq (congrFun hclients 1))
    · rw [hout1 hin]
      exact f.stream1.descriptor_of_eq (congrFun hclients 1)
  · have hbefore : s₁.world.client 2 = s.world.client 2 :=
      (hfirst.others 2 (by decide)).trans (congrFun hclients 2)
    by_cases hin : InSet fd2 selected.1
    · have hlistens := hserves.second (by rwa [hselect])
      exact (f.stream2.descriptor_of_keeps hsecond (f.stream2.listens_of_eq hbefore hlistens)).trans
        (f.stream2.descriptor_of_eq hbefore)
    · rw [hout2 hin]
      exact f.stream2.descriptor_of_eq hbefore

theorem Forwarding.run_descriptors
    (h : Relation.ReflTransGen (fun s t => (f.forwarder os).Round fd1 fd2 s t ∧
      f.ServesClients os fd1 fd2 s) s t) :
    getFileDescriptor (f.forwarder os).io1 t.world =
        getFileDescriptor (f.forwarder os).io1 s.world ∧
      getFileDescriptor (f.forwarder os).io2 t.world =
        getFileDescriptor (f.forwarder os).io2 s.world := by
  induction h with
  | refl => exact ⟨rfl, rfl⟩
  | tail _ hround ih =>
    have hkept := Forwarding.round_descriptors hround.1 hround.2
    exact ⟨hkept.1.trans ih.1, hkept.2.trans ih.2⟩

/-- In a run that serves no server without a client, every `select` waits on the descriptors that
the drivers read from. -/
theorem forward_waits_where_it_reads (os : DatagramOs Ω) (f : Forwarding Ω)
    (driver1 driver2 : Driver) (w : Objects Ω) (s : ForwardState (Objects Ω))
    (h : Relation.ReflTransGen (fun s t =>
      (f.forwarder os).Round (getFileDescriptor (f.forwarder os).io1 w)
        (getFileDescriptor (f.forwarder os).io2 w) s t ∧
      f.ServesClients os (getFileDescriptor (f.forwarder os).io1 w)
        (getFileDescriptor (f.forwarder os).io2 w) s) ⟨driver1, driver2, w⟩ s) :
    (f.forwarder os).WaitsWhereItReads (getFileDescriptor (f.forwarder os).io1 w)
      (getFileDescriptor (f.forwarder os).io2 w) s :=
  fun _ => Forwarding.run_descriptors h

/-- A system where every descriptor is ready, and accepts a client on 7. -/
def oneClient : DatagramOs SocketScript :=
  { SocketScript.os with
    select := fun reads writes _ w => (.ok (reads, writes), w)
    accept := fun _ w => (.ok 7, w) }

def serverToFile : Forwarding SocketScript where
  rawMode := false
  stream1 := .unixServerStream ⟨1, 3, true⟩
  stream2 := .fdStream 4 true true
  extract1 := .pure fun b => b.length
  extract2 := .pure fun b => b.length
  listeners1 := []
  listeners2 := []
  timeout1 := 0
  timeout2 := 0
  bufferSize := 100

def Objects.start (os : Ω) (client : ℕ → Option ℤ) : Objects Ω :=
  ⟨.start os, fun _ => ⟨[], UDPServerStream.sizeofSockaddr, false, 0, []⟩, client⟩

/-- With a client from the start the loop waits on its descriptor. -/
theorem forward_waits_on_client : ∃ s,
    ((serverToFile.forwarder oneClient).Round 7 4 ⟨.new 100 false, .new 100 false,
      .start ⟨[], []⟩ fun _ => some 7⟩ s) ∧
    (serverToFile.forwarder oneClient).WaitsWhereItReads 7 4 s := by
  obtain ⟨s, hs, -⟩ := Next.exists_again (fun _ => True)
    (x := (serverToFile.forwarder oneClient).iteration 2 7 4 ⟨.new 100 false, .new 100 false,
      .start ⟨[], []⟩ fun _ => some 7⟩) (by decide)
  refine ⟨s, ⟨2, hs⟩, ?_⟩
  have hserves : serverToFile.ServesClients oneClient 7 4 ⟨.new 100 false, .new 100 false,
      .start ⟨[], []⟩ fun _ => some 7⟩ := by
    constructor
    · intro _ hnone
      cases hnone
    · exact fun _ => id
  exact forward_waits_where_it_reads oneClient serverToFile (.new 100 false) (.new 100 false)
    (.start ⟨[], []⟩ fun _ => some 7) s (.single ⟨⟨2, hs⟩, hserves⟩)

/-- Once the client is there, the loop still waits on the descriptor of the server. -/
theorem forward_waits_for_another : ¬ ∀ (f : Forwarding SocketScript) (driver1 driver2 : Driver)
    (w : Objects SocketScript) (s : ForwardState (Objects SocketScript)),
    Relation.ReflTransGen ((f.forwarder oneClient).Round
      (getFileDescriptor (f.forwarder oneClient).io1 w)
      (getFileDescriptor (f.forwarder oneClient).io2 w)) ⟨driver1, driver2, w⟩ s →
    (f.forwarder oneClient).WaitsWhereItReads (getFileDescriptor (f.forwarder oneClient).io1 w)
      (getFileDescriptor (f.forwarder oneClient).io2 w) s := by
  intro h
  obtain ⟨s, hs, heof, hclient⟩ := Next.exists_again
    (fun s => (serverToFile.forwarder oneClient).eof s.world = .ok false ∧
      getFileDescriptor (serverToFile.forwarder oneClient).io1 s.world = 7)
    (x := (serverToFile.forwarder oneClient).iteration 2 3 4 ⟨.new 100 false, .new 100 false,
      .start ⟨[], []⟩ fun _ => none⟩) (by decide)
  have hwaits := (h serverToFile (.new 100 false) (.new 100 false) (.start ⟨[], []⟩ fun _ => none) s
    (.single ⟨2, hs⟩) heof).1
  rw [hclient] at hwaits
  exact absurd hwaits (by decide)

end IodriversBase
