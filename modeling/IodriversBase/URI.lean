import IodriversBase.Text
import Mathlib.Data.Finmap

namespace IodriversBase

/-- `URI::Options`, a `std::map`. -/
abbrev Options := Finmap fun _ : Text => Text

/-- A `URI`. -/
structure URI where
  scheme : Text
  host : Text
  port : ℤ
  options : Options
  deriving DecidableEq

def URI.getOption (uri : URI) (key : Text) (defaultValue : Text) : Text :=
  (uri.options.lookup key).getD defaultValue

/-- The loop over the options, from the character before the first of them. -/
def parseOptions (uri : Text) (oneBeforeOptions : ℕ) (options : Options) :
    Except ArgError Options :=
  let optionsStart := oneBeforeOptions + 1
  let separator := findFirstOf uri ['='] optionsStart
  let optionsEnd := findFirstOf uri ['&'] optionsStart
  let failure : ArgError := .invalidArgument ("invalid options syntax in ".toList ++ uri ++
    ", expected key=value pairs separated by &".toList)
  match separator, h : optionsEnd with
  | none, _ => .error failure
  | some separator, none =>
    let key := substr uri optionsStart (some (separator - optionsStart))
    .ok (options.insert key (substr uri (separator + 1) none))
  | some separator, some optionsEnd =>
    if separator > optionsEnd then .error failure
    else
      let key := substr uri optionsStart (some (separator - optionsStart))
      let value := substr uri (separator + 1) (some (optionsEnd - separator - 1))
      parseOptions uri optionsEnd (options.insert key value)
termination_by uri.length - oneBeforeOptions
decreasing_by
  have := findFirstOf_bounds h
  omega

def URI.parse (uri : Text) : Except ArgError URI :=
  match findFirstOf uri [':'] 0 with
  | none => .error (.invalidArgument
      ("expected ".toList ++ uri ++ " to start with SCHEME://".toList))
  | some schemeEnd =>
    if substr uri schemeEnd (some 3) ≠ [':', '/', '/'] then
      .error (.invalidArgument ("expected ".toList ++ uri ++ " to start with SCHEME://".toList))
    else
      let hostStart := schemeEnd + 3
      let scheme := substr uri 0 (some schemeEnd)
      match findFirstOf uri ['?', ':'] hostStart with
      | none => .ok ⟨scheme, substr uri hostStart none, 0, ∅⟩
      | some hostEnd =>
        let host := substr uri hostStart (some (hostEnd - hostStart))
        if uri[hostEnd]? = some ':' then
          match stoi (substr uri (hostEnd + 1) none) with
          | .error x => .error x
          | .ok (port, portSize) =>
            let portEnd := hostEnd + 1 + portSize
            if portEnd = uri.length then .ok ⟨scheme, host, port, ∅⟩
            else if uri[portEnd]? = some '?' then
              (parseOptions uri portEnd ∅).map fun options => ⟨scheme, host, port, options⟩
            else .error (.invalidArgument "expected port field to be only numbers".toList)
        else (parseOptions uri hostEnd ∅).map fun options => ⟨scheme, host, 0, options⟩

def keyValue (kv : Text × Text) : Text := kv.1 ++ '=' :: kv.2

def pairsText : Text × Text → List (Text × Text) → Text
  | kv, [] => keyValue kv
  | kv, kv' :: kvs => keyValue kv ++ '&' :: pairsText kv' kvs

def optionsText : List (Text × Text) → Text
  | [] => []
  | kv :: kvs => '?' :: pairsText kv kvs

def portText : Option Text → Text
  | none => []
  | some port => ':' :: port

def portValue (port : Option Text) : ℕ := (port.map numeral).getD 0

def Separable (kv : Text × Text) : Prop := '=' ∉ kv.1 ∧ '&' ∉ kv.1 ∧ '&' ∉ kv.2

/-- Later pairs override earlier ones. -/
def insertAll (options : Options) (pairs : List (Text × Text)) : Options :=
  pairs.foldl (fun options kv => options.insert kv.1 kv.2) options

/-- The text `u` is that of the URI `r`, with this port field and these pairs. -/
structure Derives (u : Text) (r : URI) (port : Option Text) (pairs : List (Text × Text)) :
    Prop where
  text : u = r.scheme ++ [':', '/', '/'] ++ r.host ++ (portText port ++ optionsText pairs)
  scheme : ':' ∉ r.scheme
  host : ∀ c ∈ r.host, c ∉ ['?', ':']
  digits : ∀ p ∈ port, p ≠ [] ∧ ∀ c ∈ p, c.isDigit
  port : r.port = portValue port
  options : r.options = insertAll ∅ pairs
  separable : ∀ kv ∈ pairs, Separable kv

variable {u pre q scheme host rest : Text} {options : Options} {kv : Text × Text}
  {kvs : List (Text × Text)}

theorem parseOptions_eq (uri : Text) (n : ℕ) (options : Options) : parseOptions uri n options =
    match findFirstOf uri ['='] (n + 1), findFirstOf uri ['&'] (n + 1) with
    | none, _ => .error (.invalidArgument ("invalid options syntax in ".toList ++ uri ++
        ", expected key=value pairs separated by &".toList))
    | some separator, none => .ok (options.insert
        (substr uri (n + 1) (some (separator - (n + 1)))) (substr uri (separator + 1) none))
    | some separator, some optionsEnd =>
      if separator > optionsEnd then .error (.invalidArgument ("invalid options syntax in ".toList
        ++ uri ++ ", expected key=value pairs separated by &".toList))
      else parseOptions uri optionsEnd (options.insert
        (substr uri (n + 1) (some (separator - (n + 1))))
        (substr uri (separator + 1) (some (optionsEnd - separator - 1)))) := by
  rw [parseOptions]
  dsimp only
  rcases findFirstOf uri ['='] (n + 1) with _ | separator
  · rfl
  · split
    · next h => cases h
    · next h hend =>
      cases h
      rw [hend]
    · next h hend =>
      cases h
      rw [hend]

theorem Separable.notMem (h : Separable kv) : '&' ∉ keyValue kv := by
  obtain ⟨_, hk, hv⟩ := h
  simp only [keyValue, List.mem_append, List.mem_cons, not_or]
  exact ⟨hk, by decide, hv⟩

theorem findFirstOf_key (h : Separable kv) (pre rest : Text) :
    findFirstOf (pre ++ (keyValue kv ++ rest)) ['='] pre.length =
      some (pre.length + kv.1.length) := by
  rw [keyValue, List.append_assoc]
  exact findFirstOf_eq_some (forall_notMem_singleton h.1) (List.mem_singleton_self _) _

theorem substr_key (kv : Text × Text) (pre rest : Text) :
    substr (pre ++ (keyValue kv ++ rest)) pre.length
      (some (pre.length + kv.1.length - pre.length)) = kv.1 := by
  rw [Nat.add_sub_cancel_left, keyValue, List.append_assoc]
  exact substr_left _ _ _

theorem parseOptions_last (hkv : Separable kv) {n : ℕ} (hn : n + 1 = pre.length) :
    parseOptions (pre ++ keyValue kv) n options = .ok (options.insert kv.1 kv.2) := by
  have hsep := findFirstOf_key hkv pre []
  have hend : findFirstOf (pre ++ keyValue kv) ['&'] pre.length = none :=
    findFirstOf_eq_none (forall_notMem_singleton hkv.notMem)
  have hkey := substr_key kv pre []
  rw [List.append_nil] at hsep hkey
  have hvalue : substr (pre ++ keyValue kv) (pre.length + kv.1.length + 1) none = kv.2 := by
    have hsplit : pre ++ keyValue kv = (pre ++ kv.1 ++ ['=']) ++ kv.2 := by simp [keyValue]
    rw [substr, hsplit]
    exact List.drop_left' (by simp [Nat.add_assoc])
  rw [parseOptions_eq, hn, hsep, hend]
  dsimp only
  rw [hkey, hvalue]

theorem parseOptions_more (hkv : Separable kv) {n : ℕ} (hn : n + 1 = pre.length) (q : Text) :
    parseOptions (pre ++ (keyValue kv ++ '&' :: q)) n options =
      parseOptions (pre ++ (keyValue kv ++ '&' :: q)) (pre.length + (keyValue kv).length)
        (options.insert kv.1 kv.2) := by
  have hsep := findFirstOf_key hkv pre ('&' :: q)
  have hend : findFirstOf (pre ++ (keyValue kv ++ '&' :: q)) ['&'] pre.length =
      some (pre.length + (keyValue kv).length) :=
    findFirstOf_eq_some (forall_notMem_singleton hkv.notMem) (List.mem_singleton_self _) q
  have hlen : (keyValue kv).length = kv.1.length + 1 + kv.2.length := by
    simp [keyValue, Nat.add_assoc, Nat.add_comm 1]
  have hvalue : substr (pre ++ (keyValue kv ++ '&' :: q)) (pre.length + kv.1.length + 1)
      (some (pre.length + (keyValue kv).length - (pre.length + kv.1.length) - 1)) = kv.2 := by
    have hsplit : pre ++ (keyValue kv ++ '&' :: q) =
        (pre ++ kv.1 ++ ['=']) ++ (kv.2 ++ '&' :: q) := by simp [keyValue]
    have hpos : pre.length + kv.1.length + 1 = (pre ++ kv.1 ++ ['=']).length := by
      simp [Nat.add_assoc]
    have hcount : pre.length + (keyValue kv).length - (pre.length + kv.1.length) - 1 =
        kv.2.length := by omega
    rw [hcount, hpos, hsplit]
    exact substr_left _ _ _
  rw [parseOptions_eq, hn, hsep, hend]
  dsimp only
  rw [if_neg (by omega), substr_key, hvalue]

theorem parseOptions_pairs {n : ℕ} (hn : n + 1 = pre.length)
    (hkvs : ∀ kv' ∈ kv :: kvs, Separable kv') :
    parseOptions (pre ++ pairsText kv kvs) n options = .ok (insertAll options (kv :: kvs)) := by
  induction kvs generalizing pre n kv options with
  | nil => exact parseOptions_last (hkvs kv List.mem_cons_self) hn
  | cons kv' kvs ih =>
    have hkv := hkvs kv List.mem_cons_self
    have hsplit : pre ++ (keyValue kv ++ '&' :: pairsText kv' kvs) =
        (pre ++ keyValue kv ++ ['&']) ++ pairsText kv' kvs := by simp
    rw [pairsText, parseOptions_more hkv hn, hsplit]
    exact ih (by simp [Nat.add_assoc]) fun kv'' h => hkvs kv'' (List.mem_cons_of_mem _ h)

theorem parseOptions_error {n : ℕ} (hsep : findFirstOf u ['='] (n + 1) = none ∨
    ∃ separator optionsEnd, findFirstOf u ['='] (n + 1) = some separator ∧
      findFirstOf u ['&'] (n + 1) = some optionsEnd ∧ optionsEnd < separator) :
    ∃ what, parseOptions u n options = .error (.invalidArgument what) := by
  rw [parseOptions_eq]
  rcases hsep with hnone | ⟨separator, optionsEnd, hsep, hend, hlt⟩
  · rw [hnone]
    exact ⟨_, rfl⟩
  · rw [hsep, hend]
    dsimp only
    rw [if_pos hlt]
    exact ⟨_, rfl⟩

theorem parseOptions_cases (pre : Text) (options : Options) (q : Text) {n : ℕ}
    (hn : n + 1 = pre.length) :
    (∃ kv kvs, q = pairsText kv kvs ∧ ∀ kv' ∈ kv :: kvs, Separable kv') ∨
      ∃ what, parseOptions (pre ++ q) n options = .error (.invalidArgument what) := by
  induction hlen : q.length using Nat.strong_induction_on generalizing pre q n options with
  | _ l ih =>
    rcases split_first ['='] q with hnone | ⟨k, c, r, rfl, hk, hc⟩
    · refine .inr (parseOptions_error (.inl ?_))
      rw [hn, findFirstOf_eq_none hnone]
    obtain rfl := List.mem_singleton.mp hc
    have hkey : '=' ∉ k := fun h => hk _ h (List.mem_singleton_self _)
    rcases split_first ['&'] k with hamp | ⟨k₁, c, k₂, rfl, hk₁, hc'⟩
    swap
    · -- an option without a value
      obtain rfl := List.mem_singleton.mp hc'
      have hsep := findFirstOf_eq_some (a := pre) hk hc r
      have hend := findFirstOf_eq_some (a := pre) hk₁ hc' (k₂ ++ '=' :: r)
      rw [show k₁ ++ '&' :: (k₂ ++ '=' :: r) = (k₁ ++ '&' :: k₂) ++ '=' :: r by simp] at hend
      rw [← hn] at hsep hend
      exact .inr (parseOptions_error (.inr ⟨_, _, hsep, hend, by simp⟩))
    -- the value goes on up to the next option, or to the end
    have hkamp : '&' ∉ k := fun h => hamp _ h (List.mem_singleton_self _)
    rcases split_first ['&'] r with hv | ⟨v, c, q', rfl, hv, hc'⟩
    · have hvamp : '&' ∉ r := fun h => hv _ h (List.mem_singleton_self _)
      exact .inl ⟨(k, r), [], rfl, by simpa using ⟨hkey, hkamp, hvamp⟩⟩
    · obtain rfl := List.mem_singleton.mp hc'
      have hvamp : '&' ∉ v := fun h => hv _ h (List.mem_singleton_self _)
      have hkv : Separable (k, v) := ⟨hkey, hkamp, hvamp⟩
      have htext : k ++ '=' :: (v ++ '&' :: q') = keyValue (k, v) ++ '&' :: q' := by simp [keyValue]
      have hsplit : pre ++ (keyValue (k, v) ++ '&' :: q') =
          (pre ++ keyValue (k, v) ++ ['&']) ++ q' := by
        simp
      have hn' : pre.length + (keyValue (k, v)).length + 1 =
          (pre ++ keyValue (k, v) ++ ['&']).length := by
        simp [Nat.add_assoc]
      rw [htext, parseOptions_more hkv hn, hsplit]
      rcases ih q'.length (by rw [← hlen]; simp; omega) _ _ q' hn' rfl
        with ⟨kv, kvs, rfl, hkvs⟩ | herr
      · exact .inl ⟨(k, v), kv :: kvs, rfl, by simpa using ⟨hkv, by simpa using hkvs⟩⟩
      · exact .inr herr

structure Parts (u scheme host rest : Text) : Prop where
  text : u = scheme ++ [':', '/', '/'] ++ host ++ rest
  scheme : ':' ∉ scheme
  host : ∀ c ∈ host, c ∉ ['?', ':']

def parseRest (u scheme host : Text) : (hostEnd : Option ℕ) → Except ArgError URI
  | none => .ok ⟨scheme, host, 0, ∅⟩
  | some hostEnd =>
    if u[hostEnd]? = some ':' then
      match stoi (substr u (hostEnd + 1) none) with
      | .error x => .error x
      | .ok (port, portSize) =>
        let portEnd := hostEnd + 1 + portSize
        if portEnd = u.length then .ok ⟨scheme, host, port, ∅⟩
        else if u[portEnd]? = some '?' then
          (parseOptions u portEnd ∅).map fun options => ⟨scheme, host, port, options⟩
        else .error (.invalidArgument "expected port field to be only numbers".toList)
    else (parseOptions u hostEnd ∅).map fun options => ⟨scheme, host, 0, options⟩

theorem Parts.parse_start (h : Parts u scheme host rest) :
    findFirstOf u [':'] 0 = some scheme.length ∧ substr u scheme.length (some 3) = [':', '/', '/'] ∧
      substr u 0 (some scheme.length) = scheme := by
  have htext : u = scheme ++ ([':', '/', '/'] ++ (host ++ rest)) := by simp [h.text]
  refine ⟨?_, ?_, ?_⟩
  · have := findFirstOf_eq_some (a := []) (forall_notMem_singleton h.scheme)
      (List.mem_singleton_self ':') ('/' :: '/' :: (host ++ rest))
    simpa [htext] using this
  · rw [htext]
    exact substr_left scheme [':', '/', '/'] (host ++ rest)
  · rw [htext]
    exact substr_left [] scheme _

theorem Parts.parse_eq_none (h : Parts u scheme host []) :
    URI.parse u = .ok ⟨scheme, host, 0, ∅⟩ := by
  obtain ⟨hstart, hslashes, hscheme⟩ := h.parse_start
  have hlen : scheme.length + 3 = (scheme ++ [':', '/', '/']).length := by simp
  have hend : findFirstOf u ['?', ':'] (scheme.length + 3) = none := by
    rw [hlen, h.text, List.append_nil]
    exact findFirstOf_eq_none h.host
  have hhost : substr u (scheme.length + 3) none = host := by
    rw [hlen, h.text, List.append_nil]
    exact List.drop_left
  rw [URI.parse, hstart]
  dsimp only
  rw [if_neg (not_not.mpr hslashes), hend, hscheme]
  dsimp only
  rw [hhost]

theorem Parts.parse_eq_some {c : Char} (hc : c ∈ ['?', ':']) {q : Text}
    (h : Parts u scheme host (c :: q)) :
    URI.parse u = parseRest u scheme host (some (scheme.length + 3 + host.length)) := by
  obtain ⟨hstart, hslashes, hscheme⟩ := h.parse_start
  have hlen : scheme.length + 3 = (scheme ++ [':', '/', '/']).length := by simp
  have htext : u = (scheme ++ [':', '/', '/']) ++ (host ++ c :: q) := by simp [h.text]
  have hend : findFirstOf u ['?', ':'] (scheme.length + 3) =
      some (scheme.length + 3 + host.length) := by
    rw [hlen, htext]
    exact findFirstOf_eq_some h.host hc q
  have hhost : substr u (scheme.length + 3)
      (some (scheme.length + 3 + host.length - (scheme.length + 3))) = host := by
    rw [Nat.add_sub_cancel_left, hlen, htext]
    exact substr_left _ host _
  rw [URI.parse, hstart]
  dsimp only
  rw [if_neg (not_not.mpr hslashes), hend, hscheme]
  dsimp only
  rw [hhost]
  rfl

theorem Parts.getElem?_hostEnd {c : Char} {q : Text} (h : Parts u scheme host (c :: q)) (i : ℕ) :
    u[scheme.length + 3 + host.length + i]? = (c :: q)[i]? := by
  have hlen : (scheme ++ [':', '/', '/'] ++ host).length = scheme.length + 3 + host.length := by
    simp
    omega
  rw [h.text, ← hlen, List.getElem?_append_right (Nat.le_add_right _ _), Nat.add_sub_cancel_left]

theorem Parts.parse_query {q : Text} (h : Parts u scheme host ('?' :: q)) : URI.parse u =
    (parseOptions u (scheme.length + 3 + host.length) ∅).map
      fun options => ⟨scheme, host, 0, options⟩ := by
  have hquery : u[scheme.length + 3 + host.length]? = some '?' := h.getElem?_hostEnd 0
  rw [h.parse_eq_some (by decide), parseRest, hquery, if_neg (by decide)]

theorem Parts.substr_field {c : Char} {q : Text} (h : Parts u scheme host (c :: q)) :
    substr u (scheme.length + 3 + host.length + 1) none = q := by
  have hsplit : u = (scheme ++ [':', '/', '/'] ++ host ++ [c]) ++ q := by simp [h.text]
  have hlen : (scheme ++ [':', '/', '/'] ++ host ++ [c]).length =
      scheme.length + 3 + host.length + 1 := by
    simp
    omega
  rw [substr, hsplit]
  exact List.drop_left' hlen

theorem Parts.parse_port {q blanks sign digits : Text} (h : Parts u scheme host (':' :: q))
    (hq : IntText q blanks sign digits rest) : URI.parse u =
    if ¬ InInt (signed sign (numeral digits)) then .error (.outOfRange "stoi".toList)
    else if rest = [] then .ok ⟨scheme, host, signed sign (numeral digits), ∅⟩
    else if rest.head? = some '?' then
      (parseOptions u
        (scheme.length + 3 + host.length + 1 + (blanks ++ sign ++ digits).length) ∅).map
        fun options => ⟨scheme, host, signed sign (numeral digits), options⟩
    else .error (.invalidArgument "expected port field to be only numbers".toList) := by
  have hcolon : u[scheme.length + 3 + host.length]? = some ':' := h.getElem?_hostEnd 0
  have hlen : u.length = scheme.length + 3 + host.length + 1 + (blanks ++ sign ++ digits).length +
      rest.length := by
    simp only [h.text, hq.text, List.length_append, List.length_cons, List.length_nil]
    omega
  have hnext : u[scheme.length + 3 + host.length + 1 + (blanks ++ sign ++ digits).length]? =
      rest.head? := by
    rw [Nat.add_assoc _ 1, h.getElem?_hostEnd, Nat.add_comm 1, List.getElem?_cons_succ, hq.text,
      List.getElem?_append_right le_rfl, Nat.sub_self, List.head?_eq_getElem?]
  rw [h.parse_eq_some (by decide), parseRest, if_pos hcolon, h.substr_field, hq.stoi_eq]
  by_cases hint : InInt (signed sign (numeral digits))
  swap
  · rw [if_neg hint, if_pos hint]
  rw [if_pos hint, if_neg (not_not.mpr hint)]
  dsimp only
  rw [hnext]
  by_cases hrest : rest = []
  · rw [if_pos hrest, if_pos (by simp [hlen, hrest])]
  · have hpos := List.length_pos_iff.mpr hrest
    rw [if_neg hrest, if_neg (by omega)]

theorem Parts.parse_no_port {q : Text} (h : Parts u scheme host (':' :: q))
    (hq : stoi q = .error (.invalidArgument "stoi".toList)) :
    URI.parse u = .error (.invalidArgument "stoi".toList) := by
  have hcolon : u[scheme.length + 3 + host.length]? = some ':' := h.getElem?_hostEnd 0
  rw [h.parse_eq_some (by decide), parseRest, if_pos hcolon, h.substr_field, hq]

theorem parts_cases (u : Text) : (∃ scheme host rest, Parts u scheme host rest ∧
      (rest = [] ∨ ∃ c q, rest = c :: q ∧ c ∈ ['?', ':'])) ∨
    ∃ what, URI.parse u = .error (.invalidArgument what) := by
  rcases split_first [':'] u with hnone | ⟨scheme, c, r, hu, hscheme, hc⟩
  · have hfind : findFirstOf u [':'] 0 = none := findFirstOf_eq_none (a := []) hnone
    rw [URI.parse, hfind]
    exact .inr ⟨_, rfl⟩
  obtain rfl := List.mem_singleton.mp hc
  have hcolon : ':' ∉ scheme := fun h => hscheme _ h hc
  have hfind : findFirstOf u [':'] 0 = some scheme.length := by
    have := findFirstOf_eq_some (a := []) hscheme hc r
    simpa [hu] using this
  by_cases hslashes : substr u scheme.length (some 3) = [':', '/', '/']
  swap
  · rw [URI.parse, hfind]
    dsimp only
    rw [if_pos hslashes]
    exact .inr ⟨_, rfl⟩
  have hu' : u = scheme ++ [':', '/', '/'] ++ r.drop 2 := by
    rw [substr, hu, List.drop_left] at hslashes
    rw [← hslashes, hu, List.append_assoc]
    exact congrArg (scheme ++ ·) (List.take_append_drop 3 (':' :: r)).symm
  rcases split_first ['?', ':'] (r.drop 2) with hnone | ⟨host, c, q, hr, hhost, hc⟩
  · exact .inl ⟨scheme, r.drop 2, [], ⟨by rw [List.append_nil, ← hu'], hcolon, hnone⟩, .inl rfl⟩
  · refine .inl ⟨scheme, host, c :: q, ⟨?_, hcolon, hhost⟩, .inr ⟨c, q, rfl, hc⟩⟩
    rw [hu', hr, List.append_assoc, List.append_assoc, List.append_assoc]

end IodriversBase
