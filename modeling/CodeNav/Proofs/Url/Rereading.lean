import CodeNav.Proofs.Url.Hosts
import CodeNav.Proofs.Url.Paths
import Mathlib.Data.List.TakeWhile

/-!
# Addresses are read as they are written

An address with a host is written as a scheme, a user name and a password when there are any, the host,
a port when it is not the usual one, and segments. When each part is as it is written, reading the text
takes it apart into the same parts. Only in the addresses of files a host may get lost: the name of the
machine itself, and any host before a path that begins with a drive.

## Main definitions

* `Url.IsScheme`, `Url.IsPort`, `Url.IsInfo`: parts as they are written
* `Url.hostAddress`: an address with a host, written out
* `Url.IsWritten`: an address whose parts are as they are written

## Main statements

* `Url.chars_eq_hostAddress`: what an address with a host is written like
* `Url.parseChars_hostAddress`: it is read as it is written
* `Url.parseChars_fileAddress`: so is the address of a file, but for the hosts that get lost
* `Url.isWritten_of_parse`: what is read is as it is written
-/

namespace CodeNav.Url

variable {kind : Kind} {scheme cs rest s name : List Char} {password : Option (List Char)}
  {port : Option Nat} {pieces : List (List Char)} {c : Char}

/-! ### Schemes -/

/-- A scheme as it is written. -/
structure IsScheme (scheme : List Char) : Prop where
  head : ∃ c ∈ scheme.head?, isLetter c = true
  chars : ∀ c ∈ scheme, isSchemeChar c = true
  lower : scheme.map lower = scheme

theorem toNat_lt_of_isSchemeChar (h : isSchemeChar c = true) : c.toNat < 0x80 := by
  simp only [isSchemeChar, isLetter, Bool.or_eq_true, Bool.and_eq_true, decide_eq_true_eq,
    toNat_le_iff] at h
  rcases h with (((((⟨-, h⟩ | ⟨-, h⟩) | ⟨-, h⟩) | rfl) | rfl) | rfl)
  · exact Nat.lt_of_le_of_lt h (by decide)
  · exact Nat.lt_of_le_of_lt h (by decide)
  · exact Nat.lt_of_le_of_lt h (by decide)
  · decide
  · decide
  · decide

theorem isSchemeChar_spec (h : isSchemeChar c = true) :
    isVisible c = true ∧ isSchemeChar (lower c) = true ∧ lower (lower c) = lower c ∧ c ≠ ':' := by
  have hspec := of_ascii (q := fun c ↦ isVisible c && isSchemeChar (lower c) &&
    lower (lower c) = lower c && c ≠ ':') (by decide +kernel) (toNat_lt_of_isSchemeChar h) h
  simpa [and_assoc] using hspec

theorem isSchemeChar_of_isLetter (h : isLetter c = true) : isSchemeChar c = true := by
  simp [isSchemeChar, h]

theorem isLetter_lower (h : isLetter c = true) : isLetter (lower c) = true :=
  of_ascii (q := fun c ↦ isLetter (lower c)) (by decide +kernel)
    (toNat_lt_of_isSchemeChar (isSchemeChar_of_isLetter h)) h

/-- What is read as a scheme. -/
theorem isScheme_of_readScheme? (h : readScheme? cs = some (scheme, rest)) : IsScheme scheme := by
  cases cs with
  | nil => cases h
  | cons c cs =>
    simp only [readScheme?] at h
    split at h
    · rename_i hletter
      split at h
      · obtain ⟨rfl, -⟩ := Prod.mk.inj (Option.some.inj h)
        have hchars (d : Char) (hd : d ∈ (c :: cs).takeWhile isSchemeChar) : isSchemeChar d = true :=
          List.mem_takeWhile_imp hd
        refine ⟨⟨lower c, ?_, isLetter_lower hletter⟩, fun d hd ↦ ?_, ?_⟩
        · simp [isSchemeChar_of_isLetter hletter]
        · obtain ⟨e, he, rfl⟩ := List.mem_map.mp hd
          exact (isSchemeChar_spec (hchars e he)).2.1
        · rw [List.map_map]
          exact List.map_congr_left fun d hd ↦ (isSchemeChar_spec (hchars d hd)).2.2.1
      · cases h
    · cases h

/-- A scheme is read as it is written. -/
theorem readScheme?_append (h : IsScheme scheme) (rest : List Char) :
    readScheme? (scheme ++ ':' :: rest) = some (scheme, rest) := by
  have htake : (scheme ++ ':' :: rest).takeWhile isSchemeChar = scheme := by
    rw [List.takeWhile_append_of_pos h.chars, List.takeWhile_cons_of_neg (by decide), List.append_nil]
  have hdrop : (scheme ++ ':' :: rest).dropWhile isSchemeChar = ':' :: rest := by
    rw [List.dropWhile_append_of_pos h.chars, List.dropWhile_cons_of_neg (by decide)]
  obtain ⟨c, hc, hletter⟩ := h.head
  obtain ⟨cs, rfl⟩ := List.head?_eq_some_iff.mp hc
  rw [List.cons_append] at htake hdrop ⊢
  simp only [readScheme?, hletter, if_true, htake, hdrop, h.lower]

/-! ### Ports -/

/-- A port that may be written in an address of a scheme. -/
def IsPort (scheme : List Char) (port : Option Nat) : Prop :=
  ∀ p ∈ port, p ≤ 65535 ∧ defaultPort? scheme ≠ some p

/-- A port behind a host. -/
def portText : Option Nat → List Char
  | some port => ':' :: Nat.toDigits 10 port
  | none => []

theorem le_of_portDigits {acc p : Nat} {seen : Bool} (hacc : acc ≤ 65535)
    (h : portDigits acc seen cs = .ok (some p, rest)) : p ≤ 65535 := by
  fun_induction portDigits acc seen cs with
  | case1 | case4 =>
    obtain ⟨hp, -⟩ := Prod.mk.inj (Except.ok.inj h)
    obtain ⟨-, heq⟩ := Option.ite_none_right_eq_some.mp hp
    obtain rfl := Option.some.inj heq
    exact hacc
  | case2 | case5 => cases h
  | case3 _ _ _ _ _ _ hle ih => exact ih (by omega) h

/-- What is read as a port. -/
theorem isPort_of_readPort (h : readPort scheme cs = .ok (port, rest)) : IsPort scheme port := by
  rintro p hp
  obtain rfl := hp
  simp only [readPort] at h
  split at h
  · split at h
    · cases h
    · rename_i read _ hread
      obtain ⟨hp, -⟩ := Prod.mk.inj (Except.ok.inj h)
      obtain ⟨hdefault, rfl⟩ := Option.ite_none_left_eq_some.mp hp
      exact ⟨le_of_portDigits (Nat.zero_le _) hread, Ne.symm hdefault⟩
  · cases h

theorem portDigits_digit {acc d : Nat} {seen : Bool} (hd : d < 10) (hle : acc * 10 + d ≤ 65535)
    (cs : List Char) :
    portDigits acc seen (Nat.digitChar d :: cs) = portDigits (acc * 10 + d) true cs := by
  have hdigit : ∀ d < 10, ('0' ≤ Nat.digitChar d ∧ Nat.digitChar d ≤ '9') ∧
      (Nat.digitChar d).toNat - '0'.toNat = d := by decide
  obtain ⟨hrange, hvalue⟩ := hdigit d hd
  rw [portDigits, if_pos hrange, hvalue, if_neg (by omega)]

theorem portDigits_toDigits {p : Nat} (hp : p ≤ 65535) (cs : List Char) :
    portDigits 0 false (Nat.toDigits 10 p ++ cs) = portDigits p true cs := by
  induction p using Nat.strongRecOn generalizing cs with
  | ind p ih =>
    rw [Nat.toDigits_eq_if (by decide)]
    split
    · rename_i hlt
      rw [List.singleton_append, portDigits_digit hlt (by omega), Nat.zero_mul, Nat.zero_add]
    · have hvalue : p / 10 * 10 + p % 10 = p := by omega
      rw [List.append_assoc, List.singleton_append, ih (p / 10) (by omega) (by omega),
        portDigits_digit (Nat.mod_lt _ (by decide)) (by omega), hvalue]

/-- A port is read as it is written. -/
theorem readPort_portText (hport : IsPort scheme port) (rest : List Char) :
    readPort scheme (portText port ++ '/' :: rest) = .ok (port, '/' :: rest) := by
  cases port with
  | none => rfl
  | some p =>
    obtain ⟨hle, hdefault⟩ := hport p rfl
    have hdigits : portDigits 0 false (Nat.toDigits 10 p ++ '/' :: rest) =
        .ok (some p, '/' :: rest) := by
      rw [portDigits_toDigits hle]
      rfl
    simp only [portText, List.cons_append, readPort, hdigits]
    rw [if_neg (Ne.symm hdefault)]

theorem spec_of_mem_portText (kind : Kind) (hc : c ∈ portText port) :
    isVisible c = true ∧ endsAuthority kind c = false ∧ c ≠ '@' := by
  have hdigit : ∀ c : Char, c.isDigit = true → isVisible c = true ∧ c ≠ '/' ∧ c ≠ '?' ∧ c ≠ '#' ∧
      c ≠ '\\' ∧ c ≠ '@' := by
    intro c hc
    have hspec := of_ascii (p := Char.isDigit) (q := fun c ↦ isVisible c && c ≠ '/' && c ≠ '?' &&
      c ≠ '#' && c ≠ '\\' && c ≠ '@') (by decide +kernel)
      (Nat.lt_of_le_of_lt (Char.isDigit_iff_toNat.mp hc).2 (by decide)) hc
    simpa [and_assoc] using hspec
  cases port with
  | none => cases hc
  | some p =>
    rcases List.mem_cons.mp hc with rfl | hc
    · refine ⟨by decide, ?_, by decide⟩
      simp [endsAuthority]
    · obtain ⟨hvisible, h₁, h₂, h₃, h₄, hat⟩ :=
        hdigit c (Nat.isDigit_of_mem_toDigits (by decide) (by decide) hc)
      exact ⟨hvisible, by simp [endsAuthority, h₁, h₂, h₃, h₄], hat⟩

/-! ### Hosts -/

theorem isHostChar_spec (kind : Kind) (h : isHostChar c = true) :
    endsAuthority kind c = false ∧ c ≠ ':' ∧ c ≠ '[' ∧ c ≠ ']' ∧ c ≠ '@' ∧ c ≠ '/' ∧ c ≠ '\\' ∧
      c ≠ '?' ∧ c ≠ '#' ∧ c ≠ '|' := by
  have hspec := of_ascii (q := fun c ↦ c ≠ ':' && c ≠ '[' && c ≠ ']' && c ≠ '@' && c ≠ '/' &&
    c ≠ '\\' && c ≠ '?' && c ≠ '#' && c ≠ '|') (by decide +kernel)
    (toNat_lt_of_isVisible (isVisible_of_isHostChar h)) h
  simp only [ne_eq, Bool.and_eq_true, decide_not, Bool.not_eq_true',
    decide_eq_false_iff_not] at hspec
  simp only [endsAuthority]
  simp_all

/-- The characters of a host do not end what stands between the slashes and the path. -/
theorem IsHostText.spec (h : IsHostText kind s) (hc : c ∈ s) :
    isVisible c = true ∧ endsAuthority kind c = false ∧ c ≠ '@' ∧ c ≠ '/' ∧ c ≠ '\\' ∧ c ≠ '?' ∧
      c ≠ '#' := by
  rcases h with ⟨groups, -, rfl⟩ | h
  · rw [Ipv6.text_eq] at hc
    rcases List.mem_cons.mp hc with rfl | hc
    · simp [endsAuthority, isVisible]
    · rcases List.mem_append.mp hc with hc | hc
      · obtain ⟨hvisible, -, h₁, -, -, h₂, h₃, h₄, h₅⟩ := isGroupChar_spec (isGroupChar_of_mem_inner hc)
        simp [endsAuthority, *]
      · obtain rfl := List.mem_singleton.mp hc
        simp [endsAuthority, isVisible]
  · have hchar := h.chars c hc
    obtain ⟨hends, -, -, -, hat, hslash, hbackslash, hquery, hfragment, -⟩ :=
      isHostChar_spec kind hchar
    exact ⟨isVisible_of_isHostChar hchar, hends, hat, hslash, hbackslash, hquery, hfragment⟩

theorem IsHostText.ne_nil (h : IsHostText kind s) : s ≠ [] := by
  rcases h with ⟨groups, -, rfl⟩ | h
  · simp [Ipv6.text_eq]
  · exact h.ne_nil

/-- A host ends before a colon or a slash. -/
theorem hostChars_append (h : IsHostText kind s) (hc : c = ':' ∨ c = '/') (rest : List Char) :
    hostChars kind false (s ++ c :: rest) = s := by
  have hend : hostChars kind false (c :: rest) = [] := by
    rcases hc with rfl | rfl <;> simp [hostChars, endsAuthority]
  rcases h with ⟨groups, -, rfl⟩ | h
  · have hgroups (gs : List Char) (hgs : ∀ d ∈ gs, isGroupChar d = true) :
        hostChars kind true (gs ++ ']' :: c :: rest) = gs ++ [']'] := by
      induction gs with
      | nil =>
        rw [List.nil_append, hostChars, if_neg (by simp [endsAuthority])]
        simp [hend]
      | cons d gs ih =>
        obtain ⟨-, -, h₁, h₂, h₃, h₄, h₅, h₆, -⟩ := isGroupChar_spec (hgs d List.mem_cons_self)
        have hgoes : ¬ (endsAuthority kind d || (d = ':' && !true)) = true := by
          simp [endsAuthority, h₁, h₄, h₅, h₆]
        rw [List.cons_append, hostChars, if_neg hgoes, if_neg h₂, if_neg h₃]
        exact congrArg (d :: ·) (ih fun e he ↦ hgs e (List.mem_cons_of_mem _ he))
    rw [Ipv6.text_eq, List.cons_append, List.append_assoc, List.singleton_append, hostChars,
      if_neg (by simp [endsAuthority])]
    simp only [if_true]
    rw [hgroups _ fun d hd ↦ isGroupChar_of_mem_inner hd]
  · have hchars := h.chars
    clear h
    induction s with
    | nil => exact hend
    | cons d s ih =>
      obtain ⟨h₁, h₂, h₃, h₄, -⟩ := isHostChar_spec kind (hchars d List.mem_cons_self)
      have hgoes : ¬ (endsAuthority kind d || (d = ':' && !false)) = true := by simp [h₁, h₂]
      rw [List.cons_append, hostChars, if_neg hgoes, if_neg h₃, if_neg h₄]
      exact congrArg (d :: ·) (ih fun e he ↦ hchars e (List.mem_cons_of_mem _ he))

theorem exists_portText_append (port : Option Nat) (rest : List Char) :
    ∃ c more, (c = ':' ∨ c = '/') ∧ portText port ++ '/' :: rest = c :: more := by
  cases port with
  | none => exact ⟨'/', rest, Or.inr rfl, rfl⟩
  | some p => exact ⟨':', _, Or.inl rfl, rfl⟩

/-- Host and port are read as they are written. -/
theorem readHost_append (hkind : kind ≠ .file) (hs : IsHostText kind s) (hport : IsPort scheme port)
    (rest : List Char) :
    readHost scheme kind (s ++ (portText port ++ '/' :: rest)) =
      (hostOf kind s).map fun h ↦ (some h, port, '/' :: rest) := by
  obtain ⟨c, more, hc, hmore⟩ := exists_portText_append port rest
  have htext : hostChars kind false (s ++ (portText port ++ '/' :: rest)) = s := by
    rw [hmore]
    exact hostChars_append hs hc more
  have hempty : s.isEmpty = false := by simpa using hs.ne_nil
  have hhost : (if kind = .web then namedHost s else foreignHost s) = hostOf kind s := by
    cases kind <;> simp_all [hostOf]
  simp only [readHost, htext, List.drop_left, hempty, hhost, readPort_portText hport]
  cases hostOf kind s <;> rfl

/-! ### User names and passwords -/

/-- A user name and a password as they are written, or neither. -/
def IsInfo (name : List Char) (password : Option (List Char)) : Prop :=
  (name = [] ∧ password = none) ∨
    ∃ word, password = some word ∧ word ≠ [] ∧ ∀ c ∈ name ++ word, Percent.userinfoSet c = false

/-- A user name and a password before a host. -/
def infoText (name : List Char) (password : Option (List Char)) : List Char :=
  match name, password with
  | [], none => []
  | name, none => name ++ ['@']
  | name, some password => name ++ ':' :: password ++ ['@']

theorem userinfoSet_spec (kind : Kind) (h : Percent.userinfoSet c = false) : Percent.pathSet c = false ∧
    endsAuthority kind c = false ∧ c ≠ ':' ∧ c ≠ '@' ∧ c ≠ '/' ∧ c ≠ '\\' := by
  obtain ⟨hpath, hone⟩ := Bool.or_eq_false_iff.mp h
  have hquery : c ≠ '?' ∧ c ≠ '#' := by
    constructor <;> rintro rfl <;> cases hpath
  simp only [Percent.isOneOf, List.any_cons, List.any_nil, Bool.or_eq_false_iff, beq_eq_false_iff_ne,
    ne_eq] at hone
  obtain ⟨hslash, hcolon, -, -, hat, -, hbackslash, -⟩ := hone
  refine ⟨hpath, ?_, Ne.symm hcolon, Ne.symm hat, Ne.symm hslash, Ne.symm hbackslash⟩
  simp [endsAuthority, hquery.1, hquery.2, Ne.symm hslash, Ne.symm hbackslash]

theorem infoText_some (name word : List Char) :
    infoText name (some word) = name ++ ':' :: word ++ ['@'] := by
  cases name <;> rfl

/-- The last at sign ends user name and password. -/
theorem splitUser_append (hinfo : IsInfo name password) {host : List Char}
    (hhost : ∀ c ∈ host, endsAuthority kind c = false ∧ c ≠ '@') (rest : List Char) :
    splitUser kind (infoText name password ++ (host ++ '/' :: rest)) =
      .ok (name, password, host ++ '/' :: rest) := by
  have hslash : endsAuthority kind '/' = true := by simp [endsAuthority]
  have htail (before : List Char) :
      ((before ++ host).reverse.takeWhile (· ≠ '@')).reverse =
        (before.reverse.takeWhile (· ≠ '@')).reverse ++ host := by
    rw [List.reverse_append, List.takeWhile_append_of_pos, List.reverse_append, List.reverse_reverse]
    intro c hc
    simpa using (hhost c (List.mem_reverse.mp hc)).2
  rcases hinfo with ⟨rfl, rfl⟩ | ⟨word, rfl, hword, hset⟩
  · have htake : (host ++ '/' :: rest).takeWhile (fun c ↦ !endsAuthority kind c) = host := by
      rw [List.takeWhile_append_of_pos fun c hc ↦ by simp [(hhost c hc).1],
        List.takeWhile_cons_of_neg (by simp [hslash]), List.append_nil]
    have hnone := htail []
    rw [List.nil_append] at hnone
    simp only [infoText, List.nil_append, splitUser, htake, hnone]
    simp
  · have hchars : ∀ c ∈ name ++ ':' :: word ++ '@' :: host, endsAuthority kind c = false := by
      intro c hc
      simp only [List.mem_append, List.mem_cons] at hc
      rcases hc with (hc | rfl | hc) | rfl | hc
      · exact (userinfoSet_spec kind (hset c (List.mem_append_left _ hc))).2.1
      · simp [endsAuthority]
      · exact (userinfoSet_spec kind (hset c (List.mem_append_right _ hc))).2.1
      · simp [endsAuthority]
      · exact (hhost c hc).1
    have hwhole : infoText name (some word) ++ (host ++ '/' :: rest) =
        (name ++ ':' :: word ++ '@' :: host) ++ '/' :: rest := by
      simp [infoText_some]
    have htake : ((name ++ ':' :: word ++ '@' :: host) ++ '/' :: rest).takeWhile
        (fun c ↦ !endsAuthority kind c) = name ++ ':' :: word ++ '@' :: host := by
      rw [List.takeWhile_append_of_pos fun c hc ↦ by simp [hchars c hc],
        List.takeWhile_cons_of_neg (by simp [hslash]), List.append_nil]
    have htail : ((name ++ ':' :: word ++ '@' :: host).reverse.takeWhile (· ≠ '@')).reverse = host := by
      have happend := htail (name ++ ':' :: word ++ ['@'])
      rw [List.append_assoc (name ++ ':' :: word), List.singleton_append] at happend
      rw [happend, List.reverse_append, List.reverse_singleton, List.singleton_append,
        List.takeWhile_cons_of_neg (by simp), List.reverse_nil, List.nil_append]
    have hinfo : (name ++ ':' :: word ++ '@' :: host).take
        ((name ++ ':' :: word ++ '@' :: host).length - host.length - 1) = name ++ ':' :: word := by
      have hlength : (name ++ ':' :: word ++ '@' :: host).length - host.length - 1 =
          (name ++ ':' :: word).length := by
        simp only [List.length_append, List.length_cons]
        omega
      rw [hlength, List.take_left]
    have hcolon : ∀ c ∈ name, (decide (c ≠ ':')) = true := fun c hc ↦ by
      simpa using (userinfoSet_spec kind (hset c (List.mem_append_left _ hc))).2.2.1
    have hname : (name ++ ':' :: word).takeWhile (· ≠ ':') = name := by
      rw [List.takeWhile_append_of_pos hcolon, List.takeWhile_cons_of_neg (by simp), List.append_nil]
    have hpassword : ((name ++ ':' :: word).dropWhile (· ≠ ':')).drop 1 = word := by
      rw [List.dropWhile_append_of_pos hcolon, List.dropWhile_cons_of_neg (by simp), List.drop_one,
        List.tail_cons]
    have hlong : host.length ≠ (name ++ ':' :: word ++ '@' :: host).length := by
      simp only [List.length_append, List.length_cons]
      omega
    have hsome : (name ++ ':' :: word).isEmpty = false := by simp
    have hsomeWord : word.isEmpty = false := by simpa using hword
    have hencode : Percent.encode Percent.userinfoSet name = name ∧
        Percent.encode Percent.userinfoSet word = word :=
      ⟨Percent.encode_of_none fun c hc ↦ hset c (List.mem_append_left _ hc),
        Percent.encode_of_none fun c hc ↦ hset c (List.mem_append_right _ hc)⟩
    rw [hwhole]
    simp only [splitUser, htake, htail, hlong, if_false, hinfo, hsome, hname, hpassword, hsomeWord,
      hencode, List.drop_left]
    simp

/-! ### Paths -/

/-- Segments without a query or a fragment behind them. -/
theorem splitTail_join (hpieces : ∀ p ∈ pieces, IsSegment kind p) :
    splitTail kind ('/' :: Text.joinWith '/' pieces) = ⟨'/' :: Text.joinWith '/' pieces, none, none⟩ := by
  have hchars : ∀ c ∈ '/' :: Text.joinWith '/' pieces, (c ≠ '?' && c ≠ '#') = true := by
    intro c hc
    rcases List.mem_cons.mp hc with rfl | hc
    · rfl
    · rcases Text.mem_joinWith hc with rfl | ⟨p, hp, hc⟩
      · rfl
      · have hpath := (hpieces p hp).path c hc
        have hquery : c ≠ '?' ∧ c ≠ '#' := by
          constructor <;> rintro rfl <;> cases hpath
        simp [hquery]
  have htake : ('/' :: Text.joinWith '/' pieces).takeWhile (fun c ↦ c ≠ '?' && c ≠ '#') =
      '/' :: Text.joinWith '/' pieces :=
    List.takeWhile_eq_self_iff.mpr hchars
  simp only [splitTail, htake, List.drop_length]

/-! ### Addresses -/

/-- An address with a host, written out. -/
def hostAddress (scheme info host : List Char) (port : Option Nat) (pieces : List (List Char)) :
    List Char :=
  scheme ++ ':' :: '/' :: '/' ::
    (info ++ (host ++ (portText port ++ '/' :: Text.joinWith '/' pieces)))

theorem flatten_map_cons (hne : pieces ≠ []) :
    (pieces.map ('/' :: ·)).flatten = '/' :: Text.joinWith '/' pieces := by
  fun_induction Text.joinWith '/' pieces with
  | case1 => exact absurd rfl hne
  | case2 p => simp
  | case3 p q rest ih => simpa using ih

/-- What an address with a host is written like. -/
theorem chars_eq_hostAddress {host : Host} (hne : pieces ≠ []) :
    chars ⟨scheme, name, password, some host, port, .segments pieces, none, none⟩ =
      hostAddress scheme (infoText name password) host.text port pieces := by
  have hinfo : userText ⟨scheme, name, password, some host, port, .segments pieces, none, none⟩ =
      infoText name password := rfl
  simp only [chars, hinfo, Route.text, flatten_map_cons hne, hostAddress]
  cases port <;> simp [portText]

theorem isVisible_infoText (h : IsInfo name password) : ∀ c ∈ infoText name password,
    isVisible c = true := by
  rcases h with ⟨rfl, rfl⟩ | ⟨word, rfl, -, hset⟩
  · simp [infoText]
  · intro c hc
    have hvisible {c : Char} (hc : c ∈ name ++ word) : isVisible c = true :=
      isVisible_of_pathSet (Bool.or_eq_false_iff.mp (hset c hc)).1
    rw [infoText_some] at hc
    simp only [List.mem_append, List.mem_cons, List.not_mem_nil, or_false] at hc
    rcases hc with (hc | rfl | hc) | rfl
    · exact hvisible (List.mem_append_left _ hc)
    · rfl
    · exact hvisible (List.mem_append_right _ hc)
    · rfl

/-- An address is written in visible characters. -/
theorem isVisible_hostAddress (port : Option Nat) (hscheme : IsScheme scheme) (hinfo : IsInfo name password)
    (hs : IsHostText kind s) (hpieces : ∀ p ∈ pieces, IsSegment kind p) :
    ∀ c ∈ hostAddress scheme (infoText name password) s port pieces, isVisible c = true := by
  intro c hc
  simp only [hostAddress, List.mem_append, List.mem_cons] at hc
  rcases hc with hc | rfl | rfl | rfl | hc | hc | hc | rfl | hc
  · exact (isSchemeChar_spec (hscheme.chars c hc)).1
  · rfl
  · rfl
  · rfl
  · exact isVisible_infoText hinfo c hc
  · exact (hs.spec hc).1
  · exact (spec_of_mem_portText kind hc).1
  · rfl
  · rcases Text.mem_joinWith hc with rfl | ⟨p, hp, hc⟩
    · rfl
    · exact (hpieces p hp).isVisible c hc

/-- What follows the slashes before a host is not one of them. -/
theorem head?_ne_slash (hinfo : IsInfo name password) (hs : IsHostText kind s) (rest : List Char) :
    ∀ c ∈ (infoText name password ++ (s ++ rest)).head?, ¬ (c = '/' ∨ c = '\\') := by
  intro c hc
  have hhost {d : Char} (hd : d ∈ s) : ¬ (d = '/' ∨ d = '\\') := by
    obtain ⟨-, -, -, hslash, hbackslash, -⟩ := hs.spec hd
    simp [hslash, hbackslash]
  obtain ⟨d, ds, rfl⟩ := List.exists_cons_of_ne_nil hs.ne_nil
  rcases hinfo with ⟨rfl, rfl⟩ | ⟨word, rfl, -, hset⟩
  · obtain rfl : d = c := by simpa [infoText] using hc
    exact hhost List.mem_cons_self
  · rw [infoText_some] at hc
    cases name with
    | nil =>
      obtain rfl : ':' = c := by simpa using hc
      decide
    | cons e name =>
      obtain rfl : e = c := by simpa using hc
      obtain ⟨-, -, -, -, hslash, hbackslash⟩ :=
        userinfoSet_spec kind (hset e List.mem_cons_self)
      simp [hslash, hbackslash]

/-- An authority is read as it is written. -/
theorem parseAuthority_append (hkind : kind ≠ .file) (hinfo : IsInfo name password)
    (hs : IsHostText kind s) (hport : IsPort scheme port) (hne : pieces ≠ [])
    (hpieces : ∀ p ∈ pieces, IsSegment kind p) :
    parseAuthority scheme kind
        (infoText name password ++ (s ++ (portText port ++ '/' :: Text.joinWith '/' pieces))) =
      (hostOf kind s).map fun h ↦
        ⟨scheme, name, password, some h, port, .segments pieces, none, none⟩ := by
  have huser : splitUser kind
      (infoText name password ++ (s ++ (portText port ++ '/' :: Text.joinWith '/' pieces))) =
        .ok (name, password, s ++ (portText port ++ '/' :: Text.joinWith '/' pieces)) := by
    have happend : s ++ (portText port ++ '/' :: Text.joinWith '/' pieces) =
        (s ++ portText port) ++ '/' :: Text.joinWith '/' pieces := by simp
    rw [happend]
    refine splitUser_append hinfo (fun c hc ↦ ?_) _
    rcases List.mem_append.mp hc with hc | hc
    · obtain ⟨-, hends, hat, -⟩ := hs.spec hc
      exact ⟨hends, hat⟩
    · exact (spec_of_mem_portText kind hc).2
  have hread : readSegments kind (Text.joinWith '/' pieces) = pieces :=
    readSegments_join hne hpieces fun hfile ↦ absurd hfile hkind
  have hhost := readHost_append hkind hs hport (Text.joinWith '/' pieces)
  simp only [parseAuthority, huser, bind, Except.bind]
  cases hof : hostOf kind s with
  | error e =>
    rw [hof] at hhost
    rw [hhost]
    rfl
  | ok h =>
    rw [hof] at hhost
    rw [hhost]
    simp [Except.map, splitTail_join hpieces, dropSlash, hread]

/-- An address with a host is read as it is written. -/
theorem parseChars_hostAddress (hscheme : IsScheme scheme) (hkind : kindOf scheme ≠ .file)
    (hinfo : IsInfo name password) (hs : IsHostText (kindOf scheme) s) (hport : IsPort scheme port)
    (hne : pieces ≠ []) (hpieces : ∀ p ∈ pieces, IsSegment (kindOf scheme) p) :
    parseChars (hostAddress scheme (infoText name password) s port pieces) =
      (hostOf (kindOf scheme) s).map fun h ↦
        ⟨scheme, name, password, some h, port, .segments pieces, none, none⟩ := by
  have hclean := clean_of_visible (isVisible_hostAddress port hscheme hinfo hs hpieces)
  have hauthority := parseAuthority_append hkind hinfo hs hport hne hpieces
  rw [parseChars, hclean, hostAddress, readScheme?_append hscheme]
  generalize hrest : infoText name password ++
    (s ++ (portText port ++ '/' :: Text.joinWith '/' pieces)) = rest at hauthority ⊢
  cases hk : kindOf scheme with
  | file => exact absurd hk hkind
  | other => rw [hk] at hauthority; simpa [hk, parseOther] using hauthority
  | web =>
    have hslashes : ('/' :: '/' :: rest).dropWhile (fun c ↦ c = '/' || c = '\\') = rest := by
      have hhead := head?_ne_slash hinfo hs (portText port ++ '/' :: Text.joinWith '/' pieces)
      rw [hrest] at hhead
      cases rest with
      | nil => rfl
      | cons c rest =>
        have hc := hhead c rfl
        simp only [List.dropWhile, decide_true, Bool.true_or]
        split
        · rename_i heq
          exact absurd (by simpa using heq) hc
        · rfl
    rw [hk] at hauthority
    simpa [hk, hslashes] using hauthority

/-! ### Files -/

/-- A host is no drive. -/
theorem IsHostText.isDrive_eq_false (h : IsHostText kind s) : isDrive s = false := by
  refine Bool.eq_false_iff.mpr fun hdrive ↦ ?_
  obtain ⟨a, b, rfl, ha, hb⟩ := exists_of_isDrive hdrive
  rcases h with ⟨groups, -, heq⟩ | h
  · rw [Ipv6.text_eq] at heq
    obtain rfl := (List.cons.inj heq).1
    cases ha
  · obtain ⟨-, hcolon, -, -, -, -, -, -, -, hbar⟩ :=
      isHostChar_spec kind (h.chars b (by simp))
    exact hb.elim hcolon hbar

theorem parseFile_slashes (scheme rest : List Char) :
    parseFile scheme ('/' :: '/' :: rest) = parseFileHost scheme rest := rfl

/-- Host and path of a file are read as they are written, unless the host gets lost. -/
theorem parseFileHost_append (hs : IsHostText .file s) (hne : pieces ≠ [])
    (hfirst : ∀ p ∈ pieces.head?, p ≠ []) (hpieces : ∀ p ∈ pieces, IsSegment .file p) :
    parseFileHost scheme (s ++ '/' :: Text.joinWith '/' pieces) = (hostOf .file s).map fun h ↦
      if h = .domain "localhost".toList ∨ pieces.head?.any isDrive = true then
        ⟨scheme, [], none, none, none,
          .segments (readSegments .file (Text.joinWith '/' pieces)), none, none⟩
      else ⟨scheme, [], none, some h, none, .segments pieces, none, none⟩ := by
  have hends : (s ++ '/' :: Text.joinWith '/' pieces).takeWhile
      (fun c ↦ c ≠ '/' && c ≠ '\\' && c ≠ '?' && c ≠ '#') = s := by
    have hchars : ∀ c ∈ s, (c ≠ '/' && c ≠ '\\' && c ≠ '?' && c ≠ '#') = true := by
      intro c hc
      obtain ⟨-, -, -, h₁, h₂, h₃, h₄⟩ := hs.spec hc
      simp [h₁, h₂, h₃, h₄]
    rw [List.takeWhile_append_of_pos hchars, List.takeWhile_cons_of_neg (by simp), List.append_nil]
  have hempty : s.isEmpty = false := by simpa using hs.ne_nil
  have hhost : namedHost s = hostOf .file s := by simp [hostOf]
  simp only [parseFileHost, hends, hs.isDrive_eq_false, Bool.false_eq_true, if_false, hempty, hhost,
    List.drop_left, splitTail_join hpieces, dropSlash, beginsWithDrive_join hne hpieces]
  cases hostOf .file s with
  | error e => rfl
  | ok h =>
    simp only [Except.map, bind, Except.bind, Option.some.injEq]
    by_cases hlost : h = .domain "localhost".toList ∨ pieces.head?.any isDrive = true
    · rw [if_pos hlost, if_pos hlost]
    · have hread : readSegments .file (Text.joinWith '/' pieces) = pieces := by
        refine readSegments_join hne hpieces fun _ p hp ↦ ⟨hfirst p hp, ?_⟩
        refine Bool.eq_false_iff.mpr fun hdrive ↦ hlost (Or.inr ?_)
        obtain ⟨rest, rfl⟩ := List.head?_eq_some_iff.mp hp
        simpa using hdrive
      rw [if_neg hlost, if_neg hlost, hread]

/-- The address of a file is read as it is written, unless its host gets lost. -/
theorem parseChars_fileAddress (hscheme : IsScheme scheme) (hkind : kindOf scheme = .file)
    (hs : IsHostText .file s) (hne : pieces ≠ []) (hfirst : ∀ p ∈ pieces.head?, p ≠ [])
    (hpieces : ∀ p ∈ pieces, IsSegment .file p) :
    parseChars (hostAddress scheme [] s none pieces) = (hostOf .file s).map fun h ↦
      if h = .domain "localhost".toList ∨ pieces.head?.any isDrive = true then
        ⟨scheme, [], none, none, none,
          .segments (readSegments .file (Text.joinWith '/' pieces)), none, none⟩
      else ⟨scheme, [], none, some h, none, .segments pieces, none, none⟩ := by
  have hinfo : IsInfo [] none := Or.inl ⟨rfl, rfl⟩
  have hclean : clean (hostAddress scheme [] s none pieces) = hostAddress scheme [] s none pieces :=
    clean_of_visible (isVisible_hostAddress _ hscheme hinfo hs hpieces)
  have haddress : hostAddress scheme [] s none pieces =
      scheme ++ ':' :: '/' :: '/' :: (s ++ '/' :: Text.joinWith '/' pieces) := rfl
  rw [parseChars, hclean, haddress, readScheme?_append hscheme]
  simp only [hkind, parseFile_slashes, parseFileHost_append hs hne hfirst hpieces]

theorem readSegments_file_ne_nil (cs : List Char) : readSegments .file cs ≠ [] := by
  simp only [readSegments, if_true]
  split
  · simp
  · rename_i hne
    exact hne

/-- What the address of a file without a host is written like. -/
theorem chars_of_host_none (hkind : kindOf scheme = .file) (hne : pieces ≠ []) :
    chars ⟨scheme, [], none, none, none, .segments pieces, none, none⟩ =
      scheme ++ ':' :: '/' :: '/' :: '/' :: Text.joinWith '/' pieces := by
  simp [chars, hkind, Route.text, flatten_map_cons hne]

/-- It is written in visible characters. -/
theorem isVisible_chars_of_host_none (hscheme : IsScheme scheme) (hkind : kindOf scheme = .file)
    (hne : pieces ≠ []) (hpieces : ∀ p ∈ pieces, IsSegment .file p) :
    ∀ c ∈ chars ⟨scheme, [], none, none, none, .segments pieces, none, none⟩, isVisible c = true := by
  rw [chars_of_host_none hkind hne]
  intro c hc
  simp only [List.mem_append, List.mem_cons] at hc
  rcases hc with hc | rfl | rfl | rfl | rfl | hc
  · exact (isSchemeChar_spec (hscheme.chars c hc)).1
  · rfl
  · rfl
  · rfl
  · rfl
  · rcases Text.mem_joinWith hc with rfl | ⟨p, hp, hc⟩
    · rfl
    · exact (hpieces p hp).isVisible c hc

/-- It is read without a host. -/
theorem parseChars_of_host_none (hscheme : IsScheme scheme) (hkind : kindOf scheme = .file)
    (hne : pieces ≠ []) (hpieces : ∀ p ∈ pieces, IsSegment .file p) :
    parseChars (chars ⟨scheme, [], none, none, none, .segments pieces, none, none⟩) =
      .ok ⟨scheme, [], none, none, none,
        .segments (readSegments .file (Text.joinWith '/' pieces)), none, none⟩ := by
  have hdrive : isDrive [] = false := rfl
  rw [parseChars, clean_of_visible (isVisible_chars_of_host_none hscheme hkind hne hpieces),
    chars_of_host_none hkind hne, readScheme?_append hscheme]
  simp [hkind, parseFile_slashes, parseFileHost, hdrive, splitTail_join hpieces, dropSlash, bind,
    Except.bind]

/-! ### What is read -/

/-- The parts of an address are as they are written. -/
structure IsWritten (u : Url) : Prop where
  scheme : IsScheme u.scheme
  host : ∀ h ∈ u.host, IsHostText (kindOf u.scheme) h.text
  port : IsPort u.scheme u.port
  file : kindOf u.scheme = .file → u.port = none
  segments : ∀ p ∈ u.segments, IsSegment (kindOf u.scheme) p

theorem readHost_eq_ok {host : Option Host} (hkind : kind ≠ .file)
    (h : readHost scheme kind cs = .ok (host, port, rest)) :
    (∀ h ∈ host, IsHostText kind h.text) ∧ IsPort scheme port := by
  simp only [readHost] at h
  generalize htext : hostChars kind false cs = text at h
  have hhost : (if kind = .web then namedHost text else foreignHost text) = hostOf kind text := by
    cases kind <;> simp_all [hostOf]
  rw [hhost] at h
  split at h
  · cases h
  · split at h
    · simp only [bind, Except.bind] at h
      split at h
      · cases h
      · rename_i read hport
        obtain ⟨rfl, heq⟩ := Prod.mk.inj (Except.ok.inj h)
        obtain ⟨rfl, -⟩ := Prod.mk.inj heq
        exact ⟨by simp, isPort_of_readPort hport⟩
    · rename_i hne
      cases hof : hostOf kind text with
      | error e => simp [hof, Except.map, bind, Except.bind] at h
      | ok named =>
        simp only [hof, Except.map, bind, Except.bind] at h
        split at h
        · cases h
        · rename_i read hport
          obtain ⟨rfl, heq⟩ := Prod.mk.inj (Except.ok.inj h)
          obtain ⟨rfl, -⟩ := Prod.mk.inj heq
          refine ⟨fun h hh ↦ ?_, isPort_of_readPort hport⟩
          obtain rfl := Option.some.inj hh
          exact isHostText_of_hostOf (by simpa using hne) hof

theorem isWritten_of_parseAuthority {u : Url} (hscheme : IsScheme scheme)
    (hkind : kindOf scheme = kind) (hfile : kind ≠ .file)
    (h : parseAuthority scheme kind cs = .ok u) : IsWritten u := by
  subst hkind
  simp only [parseAuthority, bind, Except.bind] at h
  split at h
  · cases h
  · split at h
    · cases h
    · rename_i read hread
      split at h
      · cases h
      · obtain ⟨hhost, hport⟩ := readHost_eq_ok hfile hread
        obtain rfl := Except.ok.inj h
        refine ⟨hscheme, hhost, hport, fun hk ↦ absurd hk hfile, fun p hp ↦ ?_⟩
        simp only [segments] at hp
        split at hp
        · cases hp
        · exact isSegment_of_mem_readSegments hp

theorem isWritten_of_parseFileHost {u : Url} (hscheme : IsScheme scheme)
    (hkind : kindOf scheme = .file) (h : parseFileHost scheme cs = .ok u) : IsWritten u := by
  have hwritten {host : Option Host} {text : List Char} {query fragment : Option (List Char)}
      (hhost : ∀ h ∈ host, IsHostText (kindOf scheme) h.text) :
      IsWritten ⟨scheme, [], none, host, none, .segments (readSegments .file text), query,
        fragment⟩ := by
    refine ⟨hscheme, hhost, fun _ hp ↦ (nomatch hp), fun _ ↦ rfl, fun p hp ↦ ?_⟩
    rw [hkind]
    exact isSegment_of_mem_readSegments hp
  simp only [parseFileHost] at h
  generalize (if isDrive (cs.takeWhile fun c ↦ c ≠ '/' && c ≠ '\\' && c ≠ '?' && c ≠ '#')
    = true then _ else _ : List Char × List Char) = split at h
  obtain ⟨text, rest⟩ := split
  split at h
  · obtain rfl := Except.ok.inj h
    exact hwritten (by simp)
  · cases hnamed : namedHost text with
    | error e => simp [hnamed, Except.map, bind, Except.bind] at h
    | ok named =>
      simp only [hnamed, Except.map, bind, Except.bind] at h
      obtain rfl := Except.ok.inj h
      refine hwritten fun h hh ↦ ?_
      obtain rfl := Option.some.inj (Option.ite_none_left_eq_some.mp hh).2
      exact isHostText_of_namedHost hnamed

theorem isWritten_of_parseFile {u : Url} (hscheme : IsScheme scheme) (hkind : kindOf scheme = .file)
    (h : parseFile scheme cs = .ok u) : IsWritten u := by
  simp only [parseFile] at h
  split at h
  · exact isWritten_of_parseFileHost hscheme hkind h
  · obtain rfl := Except.ok.inj h
    refine ⟨hscheme, fun _ hh ↦ (nomatch hh), fun _ hp ↦ (nomatch hp), fun _ ↦ rfl, fun p hp ↦ ?_⟩
    rw [hkind]
    exact isSegment_of_mem_readSegments hp

/-- What is read is as it is written. -/
theorem isWritten_of_parse {input : String} {u : Url} (h : parse input = .ok u) : IsWritten u := by
  simp only [parse, parseChars] at h
  split at h
  · cases h
  · rename_i scheme rest hread
    have hscheme := isScheme_of_readScheme? hread
    cases hkind : kindOf scheme with
    | file => exact isWritten_of_parseFile hscheme hkind (by simpa [hkind] using h)
    | web =>
      rw [hkind] at h
      exact isWritten_of_parseAuthority hscheme hkind (by decide) h
    | other =>
      rw [hkind] at h
      simp only [parseOther] at h
      split at h
      · exact isWritten_of_parseAuthority hscheme hkind (by decide) h
      · obtain rfl := Except.ok.inj h
        refine ⟨hscheme, fun _ hh ↦ (nomatch hh), fun _ hp ↦ (nomatch hp), fun _ ↦ rfl, fun p hp ↦ ?_⟩
        simp only [segments] at hp
        split at hp
        · rename_i hroute
          split at hroute
          · obtain rfl := Route.segments.inj hroute
            rw [hkind]
            exact isSegment_of_mem_readSegments hp
          · cases hroute
        · cases hp

end CodeNav.Url
