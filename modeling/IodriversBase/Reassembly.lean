import IodriversBase.Calls
import IodriversBase.Samples

namespace IodriversBase

open Framing

variable {ω : Type} {e : Bytes → ℤ} {E : Extract ω} {s t : Sys ω} {M : ℕ} {d : Driver}

/-- The extractor decides whenever the buffer is full. -/
def Decides (e : Bytes → ℤ) (M : ℕ) : Prop := ∀ b : Bytes, b.length = M → b ≠ [] → e b ≠ 0

/-- A driver in the first mode, when `calls` have parsed the bytes it started with and those it
has read since. -/
structure Parsed (e : Bytes → ℤ) (io : Ports ω) (start : Driver) (calls : List (Op ω × Answer))
    (s : Sys ω) : Prop where
  io : s.io = io
  number : s.number = 0
  extractLast : s.driver.extractLast = false
  maxPacketSize : s.driver.maxPacketSize = start.maxPacketSize
  parse : ∀ u, parse e (start.internalBuffer ++ received 0 s.world.trace ++ u) =
    packets calls ++ parse e (s.driver.internalBuffer ++ u)
  answers : ∀ call ∈ calls, (∃ p, call.2 = .packet p) ∨ ∃ x, call.2 = .threw x ∧ x.IsTimeout
  idle : ∀ call, calls.getLast? = some call → call.2.packets = [] →
    Framing.parse e s.driver.internalBuffer = []

theorem Parsed.step (hb : InBounds e) (hs : Stable e) (hE : E.Answers e)
    (hdec : Decides e d.maxPacketSize) {io : Ports ω} {calls : List (Op ω × Answer)}
    {call : Op ω × Answer} (hp : Parsed e io d calls s) (h : Sys.Step E s call t)
    (hop : call.1.Reads d.maxPacketSize) (hq : Quiet t.world.trace) :
    Parsed e io d (calls ++ [call]) t := by
  obtain ⟨op, a⟩ := call
  cases op with
  | readPacket n packetTimeout firstByteTimeout =>
    have hn : s.driver.maxPacketSize ≤ n := hp.maxPacketSize.trans_le hop
    obtain ⟨cs, hd⟩ := (h.readPacket hb hE).delivers hn (by rwa [hp.maxPacketSize]) hq
    have hrec := hd.received
    rw [hp.number] at hrec
    refine ⟨hd.io.trans hp.io, hd.number.trans hp.number, hd.fed.extractLast.trans hp.extractLast,
      hd.fed.maxPacketSize.trans hp.maxPacketSize, fun u => ?_, ?_, ?_⟩
    · rw [hrec, ← List.append_assoc, List.append_assoc _ cs.flatten, hp.parse, ← List.append_assoc,
        hd.parse_first hb hs hp.extractLast]
      simp
    · intro call hcall
      rcases List.mem_append.mp hcall with hcall | hcall
      · exact hp.answers call hcall
      · rw [List.mem_singleton.mp hcall]
        exact hd.answer
    · intro call hcall hnone
      obtain rfl : (.readPacket n packetTimeout firstByteTimeout, a) = call := by simpa using hcall
      exact hd.parse_eq_nil (.inr hnone)
  | _ => exact absurd hop id

theorem Parsed.run (hb : InBounds e) (hs : Stable e) (hE : E.Answers e)
    (hdec : Decides e d.maxPacketSize) {io : Ports ω} {calls more : List (Op ω × Answer)}
    (hp : Parsed e io d calls s) (h : Sys.Run E s more t)
    (hops : ∀ call ∈ more, call.1.Reads d.maxPacketSize) (hq : Quiet t.world.trace) :
    Parsed e io d (calls ++ more) t := by
  refine (h.restrict hops).history (I := fun calls s => Quiet s.world.trace → Parsed e io d calls s)
    ?_ calls (fun _ => hp) hq
  rintro calls s call t ih ⟨hstep, hop⟩ hqt
  exact (ih (hstep.quiet hqt)).step hb hs hE hdec hstep hop hqt

theorem Parsed.start (e : Bytes → ℤ) (io : Ports ω) (hf : d.extractLast = false) (w : ω) :
    Parsed e io d [] (.start io d w) :=
  ⟨rfl, rfl, hf, rfl, fun u => by simp [Sys.start], by simp, by simp⟩

theorem Parsed.complete {io : Ports ω} {calls : List (Op ω × Answer)} {x : Exn}
    (hp : Parsed e io d calls s) (hlast : calls.getLast?.map Prod.snd = some (.threw x)) :
    packets calls = Framing.parse e (d.internalBuffer ++ received 0 s.world.trace) := by
  obtain ⟨call, hcall, hx⟩ := Option.map_eq_some_iff.mp hlast
  have hnil := hp.idle call hcall (by rw [hx]; rfl)
  simpa [hnil] using (hp.parse []).symm

def Sys.ahead (μ : ω → ℕ) (s : Sys ω) : ℕ := s.driver.internalBuffer.length + μ s.world.world

/-- A call leaves no more in the buffer than was in it or has been read, and less when it returns a
packet. -/
theorem Delivers.length_le {a : Answer} {cs : List Bytes} (h : Delivers e s a t cs)
    (hb : InBounds e) : t.driver.internalBuffer.length + a.packets.length ≤
      s.driver.internalBuffer.length + cs.flatten.length := by
  obtain ⟨gone, hgone, hblock⟩ := h.fed.conserved hb
  have hlen := congrArg List.length hgone
  simp only [List.length_append] at hlen
  obtain ⟨p, rfl⟩ | ⟨x, rfl, _⟩ := h.answer
  · -- the packet has left the buffer
    have hlast : (s.driver.finds e cs).getLast? = some p :=
      Option.toList_eq_singleton_iff.mp h.last.symm
    have hp := List.length_pos_iff.mpr (ne_nil_of_mem_found (List.mem_of_getLast? hlast))
    have hle := (hblock p hlast).length_le
    simp only [Answer.packets, List.length_singleton]
    omega
  · simp only [Answer.packets, List.length_nil]
    omega

end IodriversBase
