import IodriversBase.URI

namespace IodriversBase

variable {u scheme host rest : Text} {pairs : List (Text × Text)}

theorem parse_optionsText {pre : Text} {n : ℕ} (hn : n = pre.length)
    (hpairs : ∀ kv ∈ pairs, Separable kv) (hne : pairs ≠ []) :
    parseOptions (pre ++ optionsText pairs) n ∅ = .ok (insertAll ∅ pairs) := by
  obtain ⟨kv, kvs, rfl⟩ := List.exists_cons_of_ne_nil hne
  have hsplit : pre ++ optionsText (kv :: kvs) = (pre ++ ['?']) ++ pairsText kv kvs := by
    simp [optionsText]
  rw [hsplit]
  exact parseOptions_pairs (by simp [hn]) hpairs

theorem optionsText_eq_nil : optionsText pairs = [] ↔ pairs = [] := by
  cases pairs <;> simp [optionsText]

theorem optionsText_head? (hne : pairs ≠ []) : (optionsText pairs).head? = some '?' := by
  obtain ⟨kv, kvs, rfl⟩ := List.exists_cons_of_ne_nil hne
  rfl

theorem Parts.parse_options (h : Parts u scheme host (optionsText pairs))
    (hpairs : ∀ kv ∈ pairs, Separable kv) :
    URI.parse u = .ok ⟨scheme, host, 0, insertAll ∅ pairs⟩ := by
  cases pairs with
  | nil => exact h.parse_eq_none
  | cons kv kvs =>
    have hread : parseOptions u (scheme.length + 3 + host.length) ∅ =
        .ok (insertAll ∅ (kv :: kvs)) := by
      rw [h.text]
      exact parse_optionsText (by simp; omega) hpairs (List.cons_ne_nil _ _)
    rw [Parts.parse_query h, hread]
    rfl

theorem Parts.parse_port_options {q blanks sign digits : Text} (h : Parts u scheme host (':' :: q))
    (hq : IntText q blanks sign digits (optionsText pairs)) (hpairs : ∀ kv ∈ pairs, Separable kv)
    (hint : InInt (signed sign (numeral digits))) :
    URI.parse u = .ok ⟨scheme, host, signed sign (numeral digits), insertAll ∅ pairs⟩ := by
  rw [h.parse_port hq, if_neg (not_not.mpr hint)]
  by_cases hne : pairs = []
  · rw [if_pos (optionsText_eq_nil.mpr hne), hne]
    rfl
  · have hread : parseOptions u
        (scheme.length + 3 + host.length + 1 + (blanks ++ sign ++ digits).length) ∅ =
          .ok (insertAll ∅ pairs) := by
      have hsplit : u = (scheme ++ [':', '/', '/'] ++ host ++ [':'] ++
          (blanks ++ sign ++ digits)) ++ optionsText pairs := by simp [h.text, hq.text]
      rw [hsplit]
      exact parse_optionsText (by simp; omega) hpairs hne
    rw [if_neg (mt optionsText_eq_nil.mp hne), if_pos (optionsText_head? hne), hread]
    rfl

theorem optionsText_head?_not_isDigit : ∀ c ∈ (optionsText pairs).head?, ¬ c.isDigit := by
  cases pairs with
  | nil => simp [optionsText]
  | cons kv kvs => simp [optionsText]

theorem intText_digits {p : Text} (hne : p ≠ []) (hdigits : ∀ c ∈ p, c.isDigit) :
    IntText (p ++ optionsText pairs) [] [] p (optionsText pairs) :=
  ⟨by simp, by simp, .inl rfl, hne, hdigits, optionsText_head?_not_isDigit⟩

theorem inInt_natCast {n : ℕ} : InInt n ↔ n < 2 ^ 31 := by
  rw [InInt]
  omega

theorem Derives.parse_eq {r : URI} {port : Option Text} (h : Derives u r port pairs)
    (hint : portValue port < 2 ^ 31) : URI.parse u = .ok r := by
  obtain ⟨htext, hscheme, hhost, hdigits, hport, hoptions, hpairs⟩ := h
  have hparts : Parts u r.scheme r.host (portText port ++ optionsText pairs) :=
    ⟨htext, hscheme, hhost⟩
  have hr : r = ⟨r.scheme, r.host, portValue port, insertAll ∅ pairs⟩ := by
    rw [← hport, ← hoptions]
  rw [hr]
  cases port with
  | none => exact hparts.parse_options hpairs
  | some p =>
    obtain ⟨hne, hp⟩ := hdigits p rfl
    exact hparts.parse_port_options (intText_digits hne hp) hpairs (inInt_natCast.mpr hint)

theorem lookup_insertAll (hnodup : (pairs.map Prod.fst).Nodup) (options : Options) (k v : Text) :
    (insertAll options pairs).lookup k = some v ↔
      (k, v) ∈ pairs ∨ k ∉ pairs.map Prod.fst ∧ options.lookup k = some v := by
  induction pairs generalizing options with
  | nil => simp [insertAll]
  | cons kv pairs ih =>
    obtain ⟨hkv, hnodup⟩ := List.nodup_cons.mp hnodup
    have hstep := ih hnodup (options.insert kv.1 kv.2)
    rw [show insertAll options (kv :: pairs) = insertAll (options.insert kv.1 kv.2) pairs from rfl,
      hstep, List.mem_cons, List.map_cons, List.mem_cons, not_or]
    by_cases hk : k = kv.1
    · subst hk
      have hnot : (kv.1, v) ∉ pairs := fun h => hkv (List.mem_map.mpr ⟨_, h, rfl⟩)
      simp [hkv, hnot, Finmap.lookup_insert, Prod.ext_iff, eq_comm]
    · simp [hk, Finmap.lookup_insert_of_ne, Prod.ext_iff]

theorem insertAll_eq {options : Options} (hnodup : (pairs.map Prod.fst).Nodup)
    (hoptions : ∀ k v, options.lookup k = some v ↔ (k, v) ∈ pairs) :
    insertAll ∅ pairs = options := by
  apply Finmap.ext_lookup
  intro k
  apply Option.ext
  intro v
  rw [lookup_insertAll hnodup, hoptions]
  simp

/-- The text of a URI is read back. -/
theorem parse_toText (scheme host : Text) (port : Option Text) (options : Options)
    (pairs : List (Text × Text)) (hscheme : ':' ∉ scheme) (hhost : ':' ∉ host ∧ '?' ∉ host)
    (hport : ∀ p ∈ port, p ≠ [] ∧ (∀ c ∈ p, c.isDigit) ∧ numeral p < 2 ^ 31)
    (hnodup : (pairs.map Prod.fst).Nodup)
    (hoptions : ∀ k v, options.lookup k = some v ↔ (k, v) ∈ pairs)
    (hfields : ∀ k v, options.lookup k = some v → '=' ∉ k ∧ '&' ∉ k ∧ '&' ∉ v) :
    URI.parse (scheme ++ [':', '/', '/'] ++ host ++ (portText port ++ optionsText pairs)) =
      .ok ⟨scheme, host, portValue port, options⟩ := by
  have hderives : Derives
      (scheme ++ [':', '/', '/'] ++ host ++ (portText port ++ optionsText pairs))
      ⟨scheme, host, portValue port, options⟩ port pairs := by
    refine ⟨rfl, hscheme, ?_, ?_, rfl, ?_, ?_⟩
    · intro c hc
      simp only [List.mem_cons, List.not_mem_nil, or_false, not_or]
      exact ⟨fun h => hhost.2 (h ▸ hc), fun h => hhost.1 (h ▸ hc)⟩
    · intro p hp
      exact ⟨(hport p hp).1, (hport p hp).2.1⟩
    · exact (insertAll_eq hnodup hoptions).symm
    · intro kv hkv
      exact hfields kv.1 kv.2 ((hoptions kv.1 kv.2).mpr hkv)
  apply hderives.parse_eq
  cases port with
  | none => decide
  | some p => exact (hport p rfl).2.2

theorem parse_toText_sample : URI.parse "tcp://h:80?a=b=?&=:".toList = .ok ⟨"tcp".toList,
    "h".toList, 80, insertAll ∅ [(['a'], ['b', '=', '?']), ([], [':'])]⟩ := by
  have hlookup : ∀ k v, (insertAll ∅ [(['a'], ['b', '=', '?']), ([], [':'])]).lookup k = some v ↔
      (k, v) ∈ [(['a'], ['b', '=', '?']), ([], [':'])] := by
    intro k v
    rw [lookup_insertAll (by decide)]
    simp
  have := parse_toText "tcp".toList "h".toList (some "80".toList) _
    [(['a'], ['b', '=', '?']), ([], [':'])] (by decide) (by decide) (by simp; decide) (by decide)
    hlookup fun k v h => by
      have hmem := (hlookup k v).mp h
      simp only [List.mem_cons, Prod.mk.injEq, List.not_mem_nil, or_false] at hmem
      rcases hmem with ⟨rfl, rfl⟩ | ⟨rfl, rfl⟩ <;> decide
  exact this

/-- The port field is more than digits, or not the value of an `int`. -/
def Misread (u : Text) : Prop :=
  ∃ scheme host q blanks sign digits rest, Parts u scheme host (':' :: q) ∧
    IntText q blanks sign digits rest ∧ (¬ InInt (signed sign (numeral digits)) ∨
      blanks ++ sign ≠ [] ∧ ∃ pairs, rest = optionsText pairs ∧ ∀ kv ∈ pairs, Separable kv)

theorem optionsText_cases {u : Text} {n : ℕ} {q pre : Text} (hu : u = pre ++ '?' :: q)
    (hn : n = pre.length) : (∃ pairs, '?' :: q = optionsText pairs ∧ ∀ kv ∈ pairs, Separable kv) ∨
      ∃ what, parseOptions u n ∅ = .error (.invalidArgument what) := by
  have hsplit : u = (pre ++ ['?']) ++ q := by simp [hu]
  rcases parseOptions_cases (pre ++ ['?']) ∅ q (n := n) (by simp [hn]) with
    ⟨kv, kvs, rfl, hkvs⟩ | ⟨what, herr⟩
  · exact .inl ⟨kv :: kvs, rfl, hkvs⟩
  · exact .inr ⟨what, hsplit ▸ herr⟩

theorem Parts.port_cases {q blanks sign digits : Text} (h : Parts u scheme host (':' :: q))
    (hq : IntText q blanks sign digits rest) (hint : InInt (signed sign (numeral digits))) :
    (∃ pairs, rest = optionsText pairs ∧ ∀ kv ∈ pairs, Separable kv) ∨
      ∃ what, URI.parse u = .error (.invalidArgument what) := by
  rw [h.parse_port hq, if_neg (not_not.mpr hint)]
  cases rest with
  | nil => exact .inl ⟨[], rfl, by simp⟩
  | cons c r =>
    rw [if_neg (List.cons_ne_nil _ _)]
    by_cases hc : c = '?'
    swap
    · rw [if_neg (by simpa using hc)]
      exact .inr ⟨_, rfl⟩
    subst hc
    have htext : u = (scheme ++ [':', '/', '/'] ++ host ++ [':'] ++ (blanks ++ sign ++ digits)) ++
        '?' :: r := by simp [h.text, hq.text]
    rcases optionsText_cases (n := scheme.length + 3 + host.length + 1 +
      (blanks ++ sign ++ digits).length) htext (by simp; omega) with hpairs | ⟨what, herr⟩
    · exact .inl hpairs
    · rw [if_pos List.head?_cons, herr]
      exact .inr ⟨what, rfl⟩

theorem parse_cases (u : Text) :
    (∃ r port pairs, Derives u r port pairs ∧ portValue port < 2 ^ 31) ∨ Misread u ∨
      ∃ what, URI.parse u = .error (.invalidArgument what) := by
  rcases parts_cases u with ⟨scheme, host, rest, hparts, rfl | ⟨c, q, rfl, hc⟩⟩ | herr
  · exact .inl ⟨⟨scheme, host, 0, ∅⟩, none, [], ⟨hparts.text, hparts.scheme, hparts.host, by simp,
      rfl, rfl, by simp⟩, by decide⟩
  swap
  · exact .inr (.inr herr)
  rw [List.mem_cons, List.mem_singleton] at hc
  rcases hc with rfl | rfl
  · -- options only
    rcases optionsText_cases (n := scheme.length + 3 + host.length) hparts.text (by simp; omega)
      with ⟨pairs, hq, hpairs⟩ | ⟨what, herr⟩
    · refine .inl ⟨⟨scheme, host, 0, insertAll ∅ pairs⟩, none, pairs, ⟨?_, hparts.scheme,
        hparts.host, by simp, rfl, rfl, hpairs⟩, by decide⟩
      rw [hparts.text, hq]
      rfl
    · refine .inr (.inr ⟨what, ?_⟩)
      rw [hparts.parse_query, herr]
      rfl
  -- a port field, as far as `std::stoi` reads it
  rcases stoi_cases q with ⟨blanks, sign, digits, rest, hq⟩ | herr
  swap
  · exact .inr (.inr ⟨_, hparts.parse_no_port herr⟩)
  by_cases hint : InInt (signed sign (numeral digits))
  swap
  · exact .inr (.inl ⟨scheme, host, q, blanks, sign, digits, rest, hparts, hq, .inl hint⟩)
  rcases hparts.port_cases hq hint with ⟨pairs, rfl, hpairs⟩ | herr
  swap
  · exact .inr (.inr herr)
  -- `std::stoi` reads blanks and a sign as well
  by_cases hplain : blanks ++ sign = []
  swap
  · exact .inr (.inl ⟨scheme, host, q, blanks, sign, digits, _, hparts, hq,
      .inr ⟨hplain, pairs, rfl, hpairs⟩⟩)
  obtain ⟨rfl, rfl⟩ := List.append_eq_nil_iff.mp hplain
  refine .inl ⟨⟨scheme, host, numeral digits, insertAll ∅ pairs⟩, some digits, pairs, ⟨?_,
    hparts.scheme, hparts.host, ?_, rfl, rfl, hpairs⟩, inInt_natCast.mp hint⟩
  · rw [hparts.text, hq.text]
    rfl
  · rintro p ⟨⟩
    exact ⟨hq.digits_ne_nil, hq.digits⟩

theorem Derives.head_isDigit {r : URI} {port : Option Text} (h : Derives u r port pairs) {q : Text}
    (hq : u = r.scheme ++ [':', '/', '/'] ++ r.host ++ ':' :: q) : ∀ c ∈ q.head?, c.isDigit := by
  have hrest : portText port ++ optionsText pairs = ':' :: q :=
    List.append_cancel_left (h.text.symm.trans hq)
  cases port with
  | none =>
    cases pairs with
    | nil => cases hrest
    | cons kv kvs => exact absurd (List.cons.inj hrest).1 (by decide)
  | some p =>
    obtain ⟨hne, hp⟩ := h.digits p rfl
    obtain ⟨x, p, rfl⟩ := List.exists_cons_of_ne_nil hne
    obtain rfl : x :: p ++ optionsText pairs = q := (List.cons.inj hrest).2
    rintro c ⟨⟩
    exact hp _ List.mem_cons_self

/-- The code accepts exactly the grammar, and refuses the rest as an invalid argument. -/
def Exact (u : Text) : Prop :=
  (∀ r, URI.parse u = .ok r ↔ ∃ port pairs, Derives u r port pairs) ∧
    ∀ x, URI.parse u = .error x → ∃ what, x = .invalidArgument what

theorem IntText.not_isDigit_head {q blanks sign digits : Text}
    (h : IntText q blanks sign digits rest) (hne : blanks ++ sign ≠ []) :
    ∃ c ∈ q.head?, ¬ c.isDigit := by
  cases blanks with
  | cons b blanks =>
    refine ⟨b, by rw [h.text]; rfl, fun hb => ?_⟩
    have hspace := h.blanks b List.mem_cons_self
    rw [isSpace_of_isDigit hb] at hspace
    cases hspace
  | nil =>
    rcases h.sign with rfl | rfl | rfl
    · exact absurd rfl hne
    · exact ⟨'+', by rw [h.text]; rfl, by decide⟩
    · exact ⟨'-', by rw [h.text]; rfl, by decide⟩

theorem Misread.not_exact (h : Misread u) : ¬ Exact u := by
  rintro ⟨hiff, herror⟩
  obtain ⟨scheme, host, q, blanks, sign, digits, rest, hparts, hq, hbad⟩ := h
  by_cases hint : InInt (signed sign (numeral digits))
  · obtain ⟨hne, pairs, rfl, hpairs⟩ := hbad.resolve_left (not_not.mpr hint)
    obtain ⟨port, pairs', hderives⟩ := (hiff _).mp (hparts.parse_port_options hq hpairs hint)
    obtain ⟨c, hc, hdigit⟩ := hq.not_isDigit_head hne
    exact hdigit (hderives.head_isDigit hparts.text c hc)
  · have herr : URI.parse u = .error (.outOfRange "stoi".toList) := by
      rw [hparts.parse_port hq, if_pos hint]
    obtain ⟨what, hwhat⟩ := herror _ herr
    cases hwhat

theorem Derives.misread {r : URI} {port : Option Text} (h : Derives u r port pairs)
    (hport : ¬ portValue port < 2 ^ 31) : Misread u := by
  cases port with
  | none => exact absurd (by decide) hport
  | some p =>
    obtain ⟨hne, hp⟩ := h.digits p rfl
    exact ⟨r.scheme, r.host, _, [], [], p, optionsText pairs, ⟨h.text, h.scheme, h.host⟩,
      intText_digits hne hp, .inl (mt inInt_natCast.mp hport)⟩

/-- `parse` is exact on the texts whose port field `stoi` does not misread. -/
theorem parse_exact_iff (u : Text) : Exact u ↔ ¬ Misread u := by
  constructor
  · intro h hmisread
    exact hmisread.not_exact h
  intro h
  have hread : ∀ r port pairs, Derives u r port pairs → URI.parse u = .ok r := by
    intro r port pairs hr
    exact hr.parse_eq (not_not.mp (mt hr.misread h))
  rcases parse_cases u with ⟨r, port, pairs, hr, hport⟩ | hmisread | ⟨what, herr⟩
  · have hok := hr.parse_eq hport
    refine ⟨fun r' => ⟨fun hr' => ?_, ?_⟩, fun x hx => ?_⟩
    · rw [hok] at hr'
      cases hr'
      exact ⟨port, pairs, hr⟩
    · rintro ⟨port', pairs', hr'⟩
      exact hread _ _ _ hr'
    · rw [hok] at hx
      cases hx
  · exact absurd hmisread h
  · refine ⟨fun r' => ⟨fun hr' => ?_, ?_⟩, fun x hx => ?_⟩
    · rw [herr] at hr'
      cases hr'
    · rintro ⟨port', pairs', hr'⟩
      exact hread _ _ _ hr'
    · rw [herr] at hx
      cases hx
      exact ⟨what, rfl⟩

/-- A sign is accepted. -/
theorem parse_not_exact_signed :
    URI.parse "tcp://h:+8".toList = .ok ⟨"tcp".toList, "h".toList, 8, ∅⟩ ∧
    ¬ Exact "tcp://h:+8".toList := by
  refine ⟨by decide, Misread.not_exact ?_⟩
  exact ⟨"tcp".toList, "h".toList, "+8".toList, [], ['+'], ['8'], [],
    ⟨by decide, by decide, by simp⟩, ⟨by decide, by simp, by decide, by decide, by simp, by simp⟩,
    .inr ⟨by decide, [], rfl, by simp⟩⟩

end IodriversBase
