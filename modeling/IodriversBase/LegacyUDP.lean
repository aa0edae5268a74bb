import IodriversBase.Grammar

namespace IodriversBase

def findLastOf (s chars : Text) : Option ℕ :=
  (s.reverse.findIdx? (· ∈ chars)).map (s.length - 1 - ·)

/-- The separators of the new syntax. -/
def newStyle : Text := ['?', '&', '=']

def backwardParseBidirectionalUDP (uriString : Text) : Except ArgError URI :=
  match findFirstOf uriString newStyle 0 with
  | some _ => URI.parse uriString
  | none =>
    let firstColon := findFirstOf uriString [':'] 6
    match findLastOf uriString [':'] with
    -- then the first colon is `npos` as well
    | none => URI.parse uriString
    | some lastColon =>
      if firstColon = some lastColon then URI.parse uriString
      else
        let localPort := substr uriString (lastColon + 1) none
        let newUri := substr uriString 0 (some lastColon) ++ "?local_port=".toList ++ localPort
        URI.parse newUri

def udpPrefix : Text := "udp://".toList

/-- The old form is read as the new one it stands for, and nothing else is rewritten. -/
structure Conservative (u : Text) : Prop where
  legacy : ∀ host remotePort localPort : Text,
    (∀ c ∈ host ++ remotePort ++ localPort, c ∉ ':' :: newStyle) →
    u = udpPrefix ++ (host ++ ':' :: (remotePort ++ ':' :: localPort)) →
    backwardParseBidirectionalUDP u = URI.parse
      (udpPrefix ++ host ++ ':' :: remotePort ++ "?local_port=".toList ++ localPort)
  modern : ∀ v, u = udpPrefix ++ v → (v.count ':' < 2 ∨ ∃ c ∈ v, c ∈ newStyle) →
    backwardParseBidirectionalUDP u = URI.parse u

variable {u v a b s chars : Text} {c : Char}

theorem findLastOf_eq_some (hb : ∀ x ∈ b, x ∉ chars) (hc : c ∈ chars) (a : Text) :
    findLastOf (a ++ c :: b) chars = some a.length := by
  have hfirst : findFirstOf (b.reverse ++ c :: a.reverse) chars 0 = some b.reverse.length := by
    have := findFirstOf_eq_some (a := []) (b := b.reverse)
      (fun x hx => hb x (List.mem_reverse.mp hx)) hc a.reverse
    simpa using this
  have hidx : (b.reverse ++ c :: a.reverse).findIdx? (· ∈ chars) = some b.length := by
    simpa [findFirstOf] using hfirst
  have hrev : (a ++ c :: b).reverse = b.reverse ++ c :: a.reverse := by simp
  rw [findLastOf, hrev, hidx, Option.map_some, List.length_append, List.length_cons]
  exact congrArg some (by omega)

theorem findFirstOf_udpPrefix_eq_none (hv : ':' ∉ v) :
    findFirstOf (udpPrefix ++ v) [':'] 6 = none :=
  findFirstOf_eq_none (a := udpPrefix) (forall_notMem_singleton hv)

theorem findFirstOf_udpPrefix_eq_some (ha : ':' ∉ a) (b : Text) :
    findFirstOf (udpPrefix ++ (a ++ ':' :: b)) [':'] 6 = some (6 + a.length) :=
  findFirstOf_eq_some (a := udpPrefix) (forall_notMem_singleton ha) (List.mem_singleton_self _) b

theorem backwardParse_newStyle (h : ∃ c ∈ v, c ∈ newStyle) :
    backwardParseBidirectionalUDP (udpPrefix ++ v) = URI.parse (udpPrefix ++ v) := by
  obtain ⟨c, hc, hsep⟩ := h
  rcases split_first newStyle (udpPrefix ++ v) with hnone | ⟨b, c', r, hv, hb, hc'⟩
  · exact absurd hsep (hnone c (List.mem_append_right _ hc))
  · have hfind : findFirstOf (udpPrefix ++ v) newStyle 0 = some b.length := by
      have := findFirstOf_eq_some (a := []) hb hc' r
      simpa [hv] using this
    rw [backwardParseBidirectionalUDP, hfind]

theorem notMem_udpPrefix_append (h : ∀ c ∈ v, c ∉ newStyle) :
    ∀ c ∈ udpPrefix ++ v, c ∉ newStyle := by
  intro c hc
  rcases List.mem_append.mp hc with hc | hc
  · have hudp : udpPrefix = ['u', 'd', 'p', ':', '/', '/'] := rfl
    rw [hudp] at hc
    fin_cases hc <;> decide
  · exact h c hc

theorem backwardParse_oldStyle (h : ∀ c ∈ udpPrefix ++ v, c ∉ newStyle)
    (hu : udpPrefix ++ v = a ++ ':' :: b) (hb : ':' ∉ b) :
    backwardParseBidirectionalUDP (udpPrefix ++ v) =
      if findFirstOf (udpPrefix ++ v) [':'] 6 = some a.length then URI.parse (udpPrefix ++ v)
      else URI.parse (a ++ "?local_port=".toList ++ b) := by
  have hnone : findFirstOf (udpPrefix ++ v) newStyle 0 = none := by
    have := findFirstOf_eq_none (a := []) h
    simpa using this
  have hlast : findLastOf (udpPrefix ++ v) [':'] = some a.length := by
    rw [hu]
    exact findLastOf_eq_some (forall_notMem_singleton hb) (List.mem_singleton_self _) a
  have hport : substr (udpPrefix ++ v) (a.length + 1) none = b := by
    rw [substr, hu, List.append_cons]
    exact List.drop_left' (by simp)
  have hfront : substr (udpPrefix ++ v) 0 (some a.length) = a := by
    rw [substr, hu, List.drop_zero, List.take_left]
  rw [backwardParseBidirectionalUDP, hnone, hlast]
  dsimp only
  rw [hport, hfront]

theorem backwardParse_no_colon (h : ∀ c ∈ v, c ∉ ':' :: newStyle) :
    ∃ what, backwardParseBidirectionalUDP (udpPrefix ++ v) = .error (.invalidArgument what) := by
  have hcolon : ':' ∉ v := fun hv => h _ hv List.mem_cons_self
  have hnew : ∀ c ∈ udpPrefix ++ v, c ∉ newStyle :=
    notMem_udpPrefix_append fun c hc hnew => h c hc (List.mem_cons_of_mem _ hnew)
  have hu : udpPrefix ++ v = "udp".toList ++ ':' :: ('/' :: '/' :: v) := rfl
  have hb : ':' ∉ '/' :: '/' :: v := by simpa using hcolon
  rw [backwardParse_oldStyle hnew hu hb, findFirstOf_udpPrefix_eq_none hcolon, if_neg (by simp)]
  -- the colon of `udp://` is cut off
  have hcut : ':' ∉ "udp".toList ++ "?local_port=".toList ++ '/' :: '/' :: v := by
    rw [List.mem_append, not_or]
    exact ⟨by decide, hb⟩
  have hfind := findFirstOf_eq_none (a := []) (forall_notMem_singleton hcut)
  rw [List.nil_append, List.length_nil] at hfind
  rw [URI.parse, hfind]
  exact ⟨_, rfl⟩

theorem parse_udpPrefix (h : ∀ c ∈ v, c ∉ ':' :: newStyle) :
    URI.parse (udpPrefix ++ v) = .ok ⟨"udp".toList, v, 0, ∅⟩ := by
  refine Parts.parse_eq_none ⟨(List.append_nil _).symm, by decide, fun c hc hsep => h c hc ?_⟩
  rw [List.mem_cons, List.mem_singleton] at hsep
  rcases hsep with rfl | rfl <;> decide

theorem backwardParse_one_colon (h : ∀ c ∈ a ++ b, c ∉ ':' :: newStyle) :
    backwardParseBidirectionalUDP (udpPrefix ++ (a ++ ':' :: b)) =
      URI.parse (udpPrefix ++ (a ++ ':' :: b)) := by
  have ha : ':' ∉ a := fun ha => h _ (List.mem_append_left _ ha) List.mem_cons_self
  have hb : ':' ∉ b := fun hb => h _ (List.mem_append_right _ hb) List.mem_cons_self
  have hnew : ∀ c ∈ udpPrefix ++ (a ++ ':' :: b), c ∉ newStyle := by
    refine notMem_udpPrefix_append fun c hc hnew => ?_
    rcases List.mem_append.mp hc with hc | hc
    · exact h c (List.mem_append_left _ hc) (List.mem_cons_of_mem _ hnew)
    · rcases List.mem_cons.mp hc with rfl | hc
      · exact absurd hnew (by decide)
      · exact h c (List.mem_append_right _ hc) (List.mem_cons_of_mem _ hnew)
  rw [backwardParse_oldStyle hnew (List.append_assoc _ _ _).symm hb,
    findFirstOf_udpPrefix_eq_some ha, if_pos]
  rw [List.length_append]
  rfl

theorem backwardParse_two_colons (h : ∀ c ∈ a ++ ':' :: b, c ∉ newStyle) (ha : ':' ∈ a)
    (hb : ':' ∉ b) : backwardParseBidirectionalUDP (udpPrefix ++ (a ++ ':' :: b)) =
      URI.parse (udpPrefix ++ a ++ "?local_port=".toList ++ b) := by
  obtain ⟨a₁, a₂, rfl, ha₁⟩ : ∃ a₁ a₂, a = a₁ ++ ':' :: a₂ ∧ ':' ∉ a₁ := by
    rcases split_first [':'] a with hnone | ⟨a₁, c, a₂, rfl, ha₁, hc⟩
    · exact absurd (List.mem_singleton_self _) (hnone _ ha)
    · obtain rfl := List.mem_singleton.mp hc
      exact ⟨a₁, a₂, rfl, fun h => ha₁ _ h hc⟩
  have hsplit : a₁ ++ ':' :: a₂ ++ ':' :: b = a₁ ++ ':' :: (a₂ ++ ':' :: b) := by simp
  rw [backwardParse_oldStyle (notMem_udpPrefix_append h) (List.append_assoc _ _ _).symm hb,
    hsplit, findFirstOf_udpPrefix_eq_some ha₁, if_neg]
  have hlen : (udpPrefix ++ (a₁ ++ ':' :: a₂)).length = 6 + a₁.length + (a₂.length + 1) := by
    rw [List.length_append, List.length_append, List.length_cons, Nat.add_assoc]
    rfl
  rw [hlen]
  intro h
  have := Option.some.inj h
  omega

theorem backwardParse_legacy {host remotePort localPort : Text}
    (h : ∀ c ∈ host ++ remotePort ++ localPort, c ∉ ':' :: newStyle) :
    backwardParseBidirectionalUDP
        (udpPrefix ++ (host ++ ':' :: (remotePort ++ ':' :: localPort))) =
      URI.parse (udpPrefix ++ host ++ ':' :: remotePort ++ "?local_port=".toList ++ localPort) := by
  have hport : ':' ∉ localPort := fun hc => h _ (List.mem_append_right _ hc) List.mem_cons_self
  have hsplit : host ++ ':' :: (remotePort ++ ':' :: localPort) =
      (host ++ ':' :: remotePort) ++ ':' :: localPort := by simp
  have hnew : ∀ c ∈ (host ++ ':' :: remotePort) ++ ':' :: localPort, c ∉ newStyle := by
    intro c hc hnew
    by_cases hcolon : c = ':'
    · rw [hcolon] at hnew
      exact absurd hnew (by decide)
    · refine h c ?_ (List.mem_cons_of_mem _ hnew)
      simpa [hcolon, or_assoc] using hc
  rw [hsplit, backwardParse_two_colons hnew (by simp) hport, List.append_assoc udpPrefix host]

/-- A single colon, or a separator of the new syntax, leaves the text as it is. -/
theorem backwardParse_modern (hsep : ∃ c ∈ v, c ∈ ':' :: newStyle)
    (h : v.count ':' < 2 ∨ ∃ c ∈ v, c ∈ newStyle) :
    backwardParseBidirectionalUDP (udpPrefix ++ v) = URI.parse (udpPrefix ++ v) := by
  by_cases hnew : ∃ c ∈ v, c ∈ newStyle
  · exact backwardParse_newStyle hnew
  have hcount := h.resolve_right hnew
  obtain ⟨c, hc, hsep⟩ := hsep
  -- the separator is a colon, and there is no other
  have hcolon : ':' ∈ v := by
    rcases List.mem_cons.mp hsep with rfl | hsep
    · exact hc
    · exact absurd ⟨c, hc, hsep⟩ hnew
  rcases split_first [':'] v with hnone | ⟨a, c, b, rfl, ha, hc⟩
  · exact absurd (List.mem_singleton_self _) (hnone _ hcolon)
  obtain rfl := List.mem_singleton.mp hc
  have hb : b.count ':' = 0 := by
    rw [List.count_append, List.count_cons_self] at hcount
    omega
  refine backwardParse_one_colon fun c hc hsep => ?_
  rcases List.mem_append.mp hc with hc | hc <;> rcases List.mem_cons.mp hsep with rfl | hsep
  · exact ha _ hc (List.mem_singleton_self _)
  · exact hnew ⟨c, by simp [hc], hsep⟩
  · exact List.count_eq_zero.mp hb hc
  · exact hnew ⟨c, by simp [hc], hsep⟩

/-- A text without any separator behind the prefix is cut at the colon of the prefix itself. -/
theorem backwardParse_conservative_iff (v : Text) :
    Conservative (udpPrefix ++ v) ↔ ∃ c ∈ v, c ∈ ':' :: newStyle := by
  constructor
  · intro h
    by_contra hnone
    have hfree : ∀ c ∈ v, c ∉ ':' :: newStyle := fun c hc hsep => hnone ⟨c, hc, hsep⟩
    obtain ⟨what, herr⟩ := backwardParse_no_colon hfree
    have hcount : v.count ':' = 0 :=
      List.count_eq_zero.mpr fun hv => hfree _ hv List.mem_cons_self
    have hsame := h.modern v rfl (.inl (by omega))
    rw [herr, parse_udpPrefix hfree] at hsame
    cases hsame
  · intro hsep
    constructor
    · intro host remotePort localPort hfree hv
      rw [hv]
      exact backwardParse_legacy hfree
    · intro v' hv hmodern
      obtain rfl := List.append_cancel_left hv
      exact backwardParse_modern hsep hmodern

/-- The URI of a host alone is refused. -/
theorem backwardParse_rewrites_host : ¬ Conservative "udp://h".toList := by
  intro h
  have hfree : ∀ c ∈ ['h'], c ∉ ':' :: newStyle := by simp [newStyle]
  have hsame := (h.modern ['h'] rfl (.inl (by decide))).trans (parse_udpPrefix hfree)
  obtain ⟨what, herr⟩ := backwardParse_no_colon hfree
  cases herr.symm.trans hsame

end IodriversBase
