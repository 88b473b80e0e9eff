import CodeNav.Proofs.Repository.Checkout
import CodeNav.Proofs.Url.Rereading
import CodeNav.Sync.Basic

/-!
# Addresses of repositories are read again

The clone address of a repository is rebuilt from its key. Whoever is handed its text, with or without a
token in it, reads the same repository: the same clone address and the same key. Whatever the token is,
it changes nothing else in the address. The key is also the one that the resource of a page and the
first two segments of its path give.

Only the clone address of a file may lose its host: when the slug begins with a drive, the host is no
part of the address any more, and its text is refused.

## Main definitions

* `RepositoryAddress.LosesHost`: the clone address of a file without its host
* `RepositoryAddress.Reread`: the texts of an address, read again

## Main statements

* `RepositoryAddress.reread_of_parse`: texts of addresses are read again, unless the host is lost
* `RepositoryAddress.exists_lost`: an address whose text is refused
-/

namespace CodeNav

open Url (IsScheme IsHostText IsPort IsSegment IsInfo IsWritten hostAddress portText hostOf kindOf)

/-! ### Texts without a pattern -/

/-- What is cut at a pattern has the pattern in it. -/
theorem Text.splitOnce_eq_some {pat cs before after : List Char}
    (h : splitOnce pat cs = some (before, after)) : cs = before ++ pat ++ after := by
  induction cs generalizing before with
  | nil =>
    obtain ⟨rest, hrest, heq⟩ := Option.map_eq_some_iff.mp h
    obtain ⟨rfl, rfl⟩ := Prod.mk.inj heq
    exact Text.dropLead?_eq_some.mp hrest
  | cons c cs ih =>
    simp only [splitOnce] at h
    split at h
    · rename_i rest hrest
      obtain ⟨rfl, rfl⟩ := Prod.mk.inj (Option.some.inj h)
      exact Text.dropLead?_eq_some.mp hrest
    · obtain ⟨⟨first, rest⟩, hrest, heq⟩ := Option.map_eq_some_iff.mp h
      obtain ⟨rfl, rfl⟩ := Prod.mk.inj heq
      simp [ih hrest]

theorem Text.joinWith_concat {sep : Char} {pieces : List (List Char)} {last ending : List Char} :
    joinWith sep (pieces ++ [last ++ ending]) = joinWith sep (pieces ++ [last]) ++ ending := by
  induction pieces with
  | nil => rfl
  | cons p rest ih =>
    cases rest with
    | nil => simp [joinWith]
    | cons q rest => simpa [joinWith] using ih

namespace RepositoryKey

variable {kind : Url.Kind} {s : List Char} {pieces : List (List Char)}

/-! ### Hosts and slugs of addresses -/

/-- The resource that a host gives. -/
theorem normalizeResource_of_isHostText (h : IsHostText kind s) :
    normalizeResource s = if isDots (s.map Url.lower) then [] else s.map Url.lower := by
  have htrim : Text.trim s = s := Text.trim_of_visible fun c hc ↦ (h.spec hc).1
  have hslash : '/' ∉ s.map Url.lower := fun hmem ↦ (h.lower.spec hmem).2.2.2.1 rfl
  have hscheme : Text.splitOnce [':', '/', '/'] (s.map Url.lower) = none := by
    rw [Option.eq_none_iff_forall_ne_some]
    rintro ⟨before, after⟩ hsplit
    exact hslash (Text.splitOnce_eq_some hsplit ▸ by simp)
  have hlower : lowerChars s = s.map Url.lower := rfl
  have hne : s.map Url.lower ≠ [] := h.lower.ne_nil
  simp only [normalizeResource, htrim, hlower, hscheme, Text.splitOn_of_notMem hslash]
  simp [hne]

/-- A segment of a slug as it stands in a path. -/
structure IsPiece (kind : Url.Kind) (s : List Char) : Prop extends IsSegment kind s where
  ne_nil : s ≠ []

theorem isDots_of_isSegment (h : IsSegment kind s) : isDots s = false := by
  rw [isDots_eq_false]
  refine ⟨?_, ?_⟩ <;> rintro rfl
  · cases h.single
  · cases h.double

/-- The pieces of a slug that segments spell. -/
theorem keptPieces_join (hne : pieces ≠ []) (h : ∀ p ∈ pieces, IsPiece kind p) :
    keptPieces (Text.joinWith '/' pieces) = pieces := by
  have hvisible : ∀ c ∈ Text.joinWith '/' pieces, Url.isVisible c = true := by
    intro c hc
    rcases Text.mem_joinWith hc with rfl | ⟨p, hp, hc⟩
    · rfl
    · exact (h p hp).isVisible c hc
  rw [keptPieces, Text.trim_of_visible hvisible,
    Text.splitOn_joinWith hne fun p hp ↦ (h p hp).slash, List.filter_eq_self]
  intro p hp
  simp [(h p hp).ne_nil, isDots_of_isSegment (h p hp).toIsSegment]

/-- The pieces of a slug with the ending of clone addresses. -/
def withSuffix (pieces : List (List Char)) : List (List Char) :=
  mapLast (· ++ gitSuffix) pieces

/-- The ending makes no dots. -/
theorem IsPiece.append_gitSuffix (h : IsPiece kind s) : IsPiece kind (s ++ gitSuffix) where
  path c hc := by
    have hsuffix : ∀ c ∈ gitSuffix, Percent.pathSet c = false := by
      simp [gitSuffix, Percent.pathSet, Percent.fragmentSet, Percent.controlSet, Percent.isOneOf]
    exact (List.mem_append.mp hc).elim (h.path c) (hsuffix c)
  slash hc := by
    have hsuffix : '/' ∉ gitSuffix := by decide
    exact (List.mem_append.mp hc).elim h.slash hsuffix
  backslash hkind hc := by
    have hsuffix : '\\' ∉ gitSuffix := by decide
    exact (List.mem_append.mp hc).elim (h.backslash hkind) hsuffix
  single := by
    refine Bool.eq_false_iff.mpr fun hsingle ↦ ?_
    exact dots_append (Url.mem_dotForms.mpr (Or.inl hsingle))
  double := by
    refine Bool.eq_false_iff.mpr fun hdouble ↦ ?_
    exact dots_append (Url.mem_dotForms.mpr (Or.inr hdouble))
  ne_nil := by simp [gitSuffix]
where
  dots_append : (s ++ gitSuffix).map Url.lower ∉ Url.dotForms := by
    intro hmem
    have hlast : ∀ d ∈ Url.dotForms, d.getLast? ≠ some 't' := by decide
    refine hlast _ hmem ?_
    have hsuffix : gitSuffix.map Url.lower = ['.', 'g', 'i'] ++ ['t'] := by decide
    rw [List.map_append, hsuffix, ← List.append_assoc, List.getLast?_concat]

/-- The ending is taken off and put on again. -/
theorem isPiece_of_mem_withSuffix {slug : List Char} (hne : pieces ≠ [])
    (h : ∀ p ∈ pieces, IsPiece kind p) (hslug : slug = Text.joinWith '/' pieces) :
    ∀ p ∈ withSuffix (slugPieces slug), IsPiece kind p := by
  subst hslug
  have hslug : slugPieces (Text.joinWith '/' pieces) =
      (mapLast (Text.stripSuffix gitSuffix) pieces).filter (· ≠ []) := by
    have hkept := keptPieces_join hne h
    rw [keptPieces] at hkept
    rw [slugPieces, hkept]
  obtain ⟨init, last, rfl⟩ := (List.eq_nil_or_concat' pieces).resolve_left hne
  have hinit : ∀ p ∈ init, IsPiece kind p := fun p hp ↦ h p (List.mem_append_left _ hp)
  have hlast : IsPiece kind last := h last (by simp)
  have hfilter : init.filter (· ≠ []) = init :=
    List.filter_eq_self.mpr fun p hp ↦ by simpa using (hinit p hp).ne_nil
  rw [hslug, mapLast_concat, List.filter_append, hfilter]
  by_cases hnil : Text.stripSuffix gitSuffix last = []
  · -- The last piece was nothing but the ending.
    have hgone : [Text.stripSuffix gitSuffix last].filter (· ≠ []) = [] := by simp [hnil]
    rw [hgone, List.append_nil]
    rcases List.eq_nil_or_concat' init with rfl | ⟨before, p, rfl⟩
    · simp [withSuffix, mapLast]
    · rw [withSuffix, mapLast_concat]
      intro q hq
      rcases List.mem_append.mp hq with hq | hq
      · exact hinit q (List.mem_append_left _ hq)
      · obtain rfl := List.mem_singleton.mp hq
        exact (hinit p (by simp)).append_gitSuffix
  · have hstays : [Text.stripSuffix gitSuffix last].filter (· ≠ []) =
        [Text.stripSuffix gitSuffix last] := by simp [hnil]
    rw [hstays, withSuffix, mapLast_concat]
    intro q hq
    rcases List.mem_append.mp hq with hq | hq
    · exact hinit q hq
    · obtain rfl := List.mem_singleton.mp hq
      rcases Text.stripSuffix_eq_or gitSuffix last with hsame | hends
      · rw [hsame]
        exact hlast.append_gitSuffix
      · rwa [← hends]

/-- What a slug with the ending of clone addresses is made of. -/
theorem slugPieces_withSuffix (hne : pieces ≠ []) (h : ∀ p ∈ withSuffix pieces, IsPiece kind p)
    (hpieces : ∀ p ∈ pieces, p ≠ []) :
    slugPieces (Text.joinWith '/' (withSuffix pieces)) = pieces := by
  obtain ⟨init, last, rfl⟩ := (List.eq_nil_or_concat' pieces).resolve_left hne
  have hends : withSuffix (init ++ [last]) = init ++ [last ++ gitSuffix] := mapLast_concat ..
  have hkept := keptPieces_join (by simp [hends]) h
  rw [keptPieces] at hkept
  rw [slugPieces, hkept, hends, mapLast_concat, Text.stripSuffix_append, List.filter_eq_self]
  intro p hp
  simpa using hpieces p hp

theorem joinWith_withSuffix (hne : pieces ≠ []) :
    Text.joinWith '/' (withSuffix pieces) = Text.joinWith '/' pieces ++ gitSuffix := by
  obtain ⟨init, last, rfl⟩ := (List.eq_nil_or_concat' pieces).resolve_left hne
  rw [withSuffix, mapLast_concat, Text.joinWith_concat]

end RepositoryKey

namespace RepositoryAddress

open RepositoryKey

variable {r : RepositoryAddress} {url u : Url} {scheme host : List Char} {port : Option Nat}
  {pieces : List (List Char)} {input : String}

/-! ### Addresses that were rebuilt -/

/-- A clone address that was rebuilt from a host in lower case and the pieces of a slug. -/
structure Rebuilt (r : RepositoryAddress) (scheme host : List Char) (port : Option Nat)
    (pieces : List (List Char)) : Prop where
  isScheme : IsScheme scheme
  isHost : IsHostText (kindOf scheme) host
  lower : host.map Url.lower = host
  isPort : IsPort scheme port
  file : kindOf scheme = .file → port = none
  key : r.key = ⟨String.ofList host, String.ofList (Text.joinWith '/' pieces)⟩
  resource : normalizeResource host = host
  two_le : 2 ≤ pieces.length
  ne_nil : ∀ p ∈ pieces, p ≠ []
  segments : r.key.segments = pieces
  isPiece : ∀ p ∈ withSuffix pieces, IsPiece (kindOf scheme) p
  read : Url.parseChars (hostAddress scheme [] host port (withSuffix pieces)) = .ok r.url

theorem Rebuilt.pieces_ne_nil (h : Rebuilt r scheme host port pieces) : pieces ≠ [] := by
  rintro rfl
  exact absurd h.two_le (by decide)

theorem Rebuilt.withSuffix_ne_nil (h : Rebuilt r scheme host port pieces) :
    withSuffix pieces ≠ [] := by
  obtain ⟨init, last, heq⟩ := (List.eq_nil_or_concat' pieces).resolve_left h.pieces_ne_nil
  rw [heq, withSuffix, mapLast_concat]
  simp

theorem Rebuilt.isComplete (h : Rebuilt r scheme host port pieces) : r.key.isComplete = true := by
  have hresource : r.key.resource.isEmpty = false := by
    rw [h.key]
    simpa using h.isHost.ne_nil
  simp [RepositoryKey.isComplete, hresource, h.segments, h.two_le]

/-- What is parsed when an address is rebuilt. -/
theorem toList_cloneText (url : Url) (hpieces : pieces ≠ []) :
    (cloneText url ⟨String.ofList host, String.ofList (Text.joinWith '/' pieces)⟩).toList =
      hostAddress url.scheme [] host url.port (withSuffix pieces) := by
  have hscheme : "://".toList = [':', '/', '/'] := rfl
  have hsuffix : ".git".toList = gitSuffix := rfl
  simp only [cloneText, hostAddress, joinWith_withSuffix hpieces]
  cases url.port <;>
    simp [portText, hscheme, hsuffix, String.toList_append]

/-- An address of which the host and some segments make a repository is rebuilt. -/
theorem rebuilt_of_ofSegments {segments : List (List Char)} (hurl : IsWritten url)
    (hsegments : ∀ p ∈ segments, IsPiece (kindOf url.scheme) p)
    (h : ofSegments url segments = .ok r) :
    ∃ scheme host port pieces, Rebuilt r scheme host port pieces := by
  obtain ⟨name, hname, hkey, hcomplete⟩ := ofSegments_eq_ok h
  have hne : segments ≠ [] := by
    rintro rfl
    have hslug : (RepositoryKey.normalize (String.ofList name)
        (String.ofList (Text.joinWith '/' []))).slug = "" := by
      simp [RepositoryKey.normalize, normalizeSlug, slugPieces, Text.joinWith, Text.splitOn, Text.trim,
        Text.trimEnd, Text.trimStart, mapLast]
    rw [hkey] at hcomplete
    simp [RepositoryKey.isComplete, RepositoryKey.segments, hslug, Text.splitOn] at hcomplete
  obtain ⟨named, hnamed, rfl⟩ : ∃ h, url.host = some h ∧ name = h.text := by
    obtain ⟨hmap, -⟩ := Option.filter_eq_some_iff.mp hname
    obtain ⟨h, hh, heq⟩ := Option.map_eq_some_iff.mp hmap
    exact ⟨h, hh, heq.symm⟩
  have hhost : IsHostText (kindOf url.scheme) named.text := hurl.host named hnamed
  have hresource : normalizeResource named.text = named.text.map Url.lower := by
    have hresource := normalizeResource_of_isHostText hhost
    split at hresource
    · rw [hkey] at hcomplete
      simp [RepositoryKey.isComplete, RepositoryKey.normalize, hresource] at hcomplete
    · exact hresource
  have hnames := names_normalize (hkey ▸ hcomplete)
  rw [← hkey, String.toList_ofList, String.toList_ofList] at hnames
  generalize hpieces : slugPieces (Text.joinWith '/' segments) = pieces at hnames
  have hkey' : r.key = ⟨String.ofList (named.text.map Url.lower),
      String.ofList (Text.joinWith '/' pieces)⟩ := by
    simp [hkey, RepositoryKey.normalize, normalizeSlug, hresource, hpieces]
  have hsegs : r.key.segments = pieces := (List.cons.inj hnames).2
  have htwo : 2 ≤ pieces.length := by
    rw [← hsegs]
    simp_all [RepositoryKey.isComplete]
  have hpiecesNe : pieces ≠ [] := by
    rintro rfl
    exact absurd htwo (by decide)
  have hlower : (named.text.map Url.lower).map Url.lower = named.text.map Url.lower := by
    have hidem (c : Char) : Url.lower (Url.lower c) = Url.lower c := by
      rcases Url.lower_cases c with heq | ⟨k, hk, -, heq⟩
      · rw [heq, heq]
      · have hall : ∀ k < 26, Url.lower (Char.ofNat (97 + k)) = Char.ofNat (97 + k) := by decide
        rw [heq, hall k hk]
    simp [hidem]
  refine ⟨_, named.text.map Url.lower, _, pieces, hurl.scheme, hhost.lower, hlower, hurl.port, hurl.file,
    hkey', ?_, htwo, ?_, hsegs, ?_, ?_⟩
  · have hagain := normalizeResource_of_isHostText hhost.lower
    rw [hlower] at hagain
    rw [hagain, if_neg]
    intro hdots
    have hresource' := normalizeResource_of_isHostText hhost
    rw [if_pos hdots] at hresource'
    exact hhost.lower.ne_nil (hresource.symm.trans hresource')
  · intro p hp
    rw [← hpieces] at hp
    simpa using (List.mem_filter.mp hp).2
  · exact hpieces ▸ isPiece_of_mem_withSuffix hne hsegments rfl
  · simp only [ofSegments, hname, ← hkey, hcomplete, if_true] at h
    split at h
    · cases h
    · rename_i clone hclone
      have hclone' : clone = r.url := congrArg RepositoryAddress.url (Except.ok.inj h)
      rw [Url.parse, hkey', toList_cloneText url hpiecesNe, hclone'] at hclone
      exact hclone

/-- Every address that has the host and the slug of one that was rebuilt is read as that one. -/
theorem Rebuilt.parse_of (h : Rebuilt r scheme host port pieces)
    (hu : Url.parse (Text.trimmed input) = .ok u) (hscheme : u.scheme = scheme)
    (hhost : u.hostText? = some host) (hport : u.port = port)
    (hroute : u.route = .segments (withSuffix pieces)) : RepositoryAddress.parse input = .ok r := by
  have hurl : urlOf input = .ok u := by
    simp [urlOf, hu, hhost]
  have hsegments : segmentsOf u = withSuffix pieces := by
    simp only [segmentsOf, Url.segments, hroute, List.filter_eq_self]
    intro p hp
    simp [(h.isPiece p hp).ne_nil, isDots_of_isSegment (h.isPiece p hp).toIsSegment]
  have hlength : (withSuffix pieces).length = pieces.length := by
    obtain ⟨init, last, heq⟩ := (List.eq_nil_or_concat' pieces).resolve_left h.pieces_ne_nil
    rw [heq, withSuffix, mapLast_concat]
    simp
  have hkey : normalize (String.ofList host) (String.ofList (Text.joinWith '/' (withSuffix pieces))) =
      r.key := by
    rw [h.key]
    simp [RepositoryKey.normalize, normalizeSlug, h.resource,
      slugPieces_withSuffix h.pieces_ne_nil h.isPiece h.ne_nil]
  have hclone : Url.parse (cloneText u r.key) = .ok r.url := by
    rw [Url.parse, h.key, toList_cloneText u h.pieces_ne_nil, hscheme, hport, h.read]
  have hof : ofSegments u (withSuffix pieces) = .ok r := by
    simp [ofSegments, hhost, hkey, h.isComplete, hclone]
  have hlong : ¬ (withSuffix pieces).length < 2 := Nat.not_lt.mpr (hlength ▸ h.two_le)
  simp only [RepositoryAddress.parse, hurl, bind, Except.bind, hsegments, hlong, if_false, hof]

/-! ### Texts of addresses -/

/-- The clone address of a file is without its host: it is that of the machine itself, or the slug begins
with a drive. -/
def LosesHost (r : RepositoryAddress) : Prop :=
  kindOf r.url.scheme = .file ∧
    (r.key.resource = "localhost" ∨ r.key.segments.head?.any Url.isDrive = true)

instance : DecidablePred LosesHost := fun _ ↦ inferInstanceAs (Decidable (_ ∧ (_ ∨ _)))

theorem head?_withSuffix (h : 2 ≤ pieces.length) : (withSuffix pieces).head? = pieces.head? := by
  match pieces, h with
  | p :: q :: rest, _ => rfl

/-- A host that is written like the machine itself. -/
theorem eq_localhost {h : Url.Host} (hh : h.text = "localhost".toList) :
    h = .domain "localhost".toList := by
  cases h with
  | domain name => exact congrArg Url.Host.domain hh
  | ipv4 address =>
    have hmem : 'l' ∈ Ipv4.text address := by
      rw [show Ipv4.text address = _ from hh]
      decide
    rcases Url.mem_text_ipv4 hmem with h | h <;> cases h
  | ipv6 groups =>
    have hhead := congrArg List.head? hh
    cases hhead

theorem Rebuilt.isSegment (h : Rebuilt r scheme host port pieces) :
    ∀ p ∈ withSuffix pieces, IsSegment (kindOf scheme) p := fun p hp ↦ (h.isPiece p hp).toIsSegment

theorem Rebuilt.text_eq (h : Rebuilt r scheme host port pieces) {named : Url.Host}
    (hof : hostOf (kindOf scheme) host = .ok named) : named.text = host :=
  Url.text_of_hostOf h.isHost h.lower hof

/-- The address of a file that was rebuilt. -/
theorem Rebuilt.file_url_eq (h : Rebuilt r scheme host port pieces) (hkind : kindOf scheme = .file) :
    ∃ named, hostOf (kindOf scheme) host = .ok named ∧
      r.url = if named = .domain "localhost".toList ∨
          (withSuffix pieces).head?.any Url.isDrive = true then
        ⟨scheme, [], none, none, none,
          .segments (Url.readSegments .file (Text.joinWith '/' (withSuffix pieces))), none, none⟩
      else ⟨scheme, [], none, some named, none, .segments (withSuffix pieces), none, none⟩ := by
  have hfirst : ∀ p ∈ (withSuffix pieces).head?, p ≠ [] := fun p hp ↦
    (h.isPiece p (List.mem_of_mem_head? hp)).ne_nil
  have hparse := h.read
  rw [h.file hkind, Url.parseChars_fileAddress h.isScheme hkind (hkind ▸ h.isHost)
    h.withSuffix_ne_nil hfirst (hkind ▸ h.isSegment)] at hparse
  rw [hkind]
  cases hof : hostOf .file host with
  | error e => simp [hof, Except.map] at hparse
  | ok named =>
    rw [hof] at hparse
    exact ⟨named, rfl, (Except.ok.inj hparse).symm⟩

/-- The address of another scheme that was rebuilt. -/
theorem Rebuilt.host_url_eq (h : Rebuilt r scheme host port pieces) (hkind : kindOf scheme ≠ .file) :
    ∃ named, hostOf (kindOf scheme) host = .ok named ∧
      r.url = ⟨scheme, [], none, some named, port, .segments (withSuffix pieces), none, none⟩ := by
  have hinfo : IsInfo [] none := Or.inl ⟨rfl, rfl⟩
  have hinfoText : Url.infoText [] none = [] := rfl
  have hread := Url.parseChars_hostAddress h.isScheme hkind hinfo h.isHost h.isPort
    h.withSuffix_ne_nil h.isSegment
  rw [hinfoText, h.read] at hread
  cases hof : hostOf (kindOf scheme) host with
  | error e => simp [hof, Except.map] at hread
  | ok named =>
    rw [hof] at hread
    exact ⟨named, rfl, Except.ok.inj hread⟩

theorem Rebuilt.scheme_eq (h : Rebuilt r scheme host port pieces) : r.url.scheme = scheme := by
  by_cases hkind : kindOf scheme = .file
  · obtain ⟨named, -, hurl⟩ := h.file_url_eq hkind
    rw [hurl]
    split <;> rfl
  · obtain ⟨named, -, hurl⟩ := h.host_url_eq hkind
    rw [hurl]

/-- When the address of a file is without its host. -/
theorem Rebuilt.losesHost_iff (h : Rebuilt r scheme host port pieces) {named : Url.Host}
    (hof : hostOf (kindOf scheme) host = .ok named) :
    r.LosesHost ↔ kindOf scheme = .file ∧
      (named = .domain "localhost".toList ∨ (withSuffix pieces).head?.any Url.isDrive = true) := by
  have hlocal : r.key.resource = "localhost" ↔ named = .domain "localhost".toList := by
    rw [h.key, ← h.text_eq hof]
    refine ⟨fun heq ↦ eq_localhost ?_, fun heq ↦ by rw [heq]; rfl⟩
    rw [← heq, String.toList_ofList]
  rw [LosesHost, h.scheme_eq, h.segments, head?_withSuffix h.two_le, hlocal]

/-- What was rebuilt, host and all. -/
theorem Rebuilt.url_eq (h : Rebuilt r scheme host port pieces) (hkept : ¬r.LosesHost) :
    ∃ named, hostOf (kindOf scheme) host = .ok named ∧
      r.url = ⟨scheme, [], none, some named, port, .segments (withSuffix pieces), none, none⟩ := by
  by_cases hkind : kindOf scheme = .file
  · obtain ⟨named, hof, hurl⟩ := h.file_url_eq hkind
    have hnamed := fun hlost ↦ hkept ((h.losesHost_iff hof).mpr ⟨hkind, hlost⟩)
    rw [if_neg hnamed] at hurl
    exact ⟨named, hof, by rw [hurl, h.file hkind]⟩
  · exact h.host_url_eq hkind

/-- A text of visible characters is read as it is. -/
theorem parse_trimmed {cs : List Char} (h : ∀ c ∈ cs, Url.isVisible c = true) :
    Url.parse (Text.trimmed (String.ofList cs)) = Url.parseChars cs := by
  simp [Url.parse, Text.trimmed, Text.trim_of_visible h]

/-- The texts of an address are read as the address: its own text, and the one with any token. With a
token, nothing else in the address is another. -/
structure Reread (r : RepositoryAddress) : Prop where
  text : parse r.text = .ok r
  token : ∀ token, parse (r.withToken token) = .ok r
  url : ∀ token, ∃ u, Url.parse (r.withToken token) = .ok u ∧ u.scheme = r.url.scheme ∧
    u.host = r.url.host ∧ u.port = r.url.port ∧ u.route = r.url.route ∧ u.query = r.url.query ∧
      u.fragment = r.url.fragment

/-- A user name and a password, encoded. -/
theorem isInfo_encode (name : List Char) {word : List Char} (hword : word ≠ []) :
    IsInfo (Percent.encode Percent.userinfoSet name)
      (some (Percent.encode Percent.userinfoSet word)) := by
  refine Or.inr ⟨_, rfl, Percent.encode_ne_nil hword, fun c hc ↦ ?_⟩
  have hset {cs : List Char} (hc : c ∈ Percent.encode Percent.userinfoSet cs) :
      Percent.userinfoSet c = false :=
    (Percent.mem_encode hc).elim Percent.userinfoSet_of_isCode And.left
  exact (List.mem_append.mp hc).elim hset hset

/-- A rebuilt address with a host is read with any user name and password as it is without. -/
theorem Rebuilt.parse_written (h : Rebuilt r scheme host port pieces) {named : Url.Host}
    (hof : hostOf (kindOf scheme) host = .ok named) {name : List Char} {password : Option (List Char)}
    (hinfo : IsInfo name password)
    (hparse : Url.parseChars (hostAddress scheme (Url.infoText name password) host port
      (withSuffix pieces)) = .ok ⟨scheme, name, password, some named, port,
        .segments (withSuffix pieces), none, none⟩) :
    let u : Url := ⟨scheme, name, password, some named, port, .segments (withSuffix pieces), none, none⟩
    parse u.text = .ok r ∧ Url.parse u.text = .ok u := by
  intro u
  have htext := h.text_eq hof
  have hchars : u.chars = hostAddress scheme (Url.infoText name password) host port
      (withSuffix pieces) := by
    rw [← htext]
    exact Url.chars_eq_hostAddress h.withSuffix_ne_nil
  have hvisible := Url.isVisible_hostAddress port h.isScheme hinfo h.isHost h.isSegment
  rw [← hchars] at hparse hvisible
  have hhost : u.hostText? = some host := by
    simp [u, Url.hostText?, htext, h.isHost.ne_nil]
  refine ⟨h.parse_of ((parse_trimmed hvisible).trans hparse) rfl hhost rfl rfl, ?_⟩
  rw [Url.parse, Url.text, String.toList_ofList, hparse]

theorem Rebuilt.reread (h : Rebuilt r scheme host port pieces) (hkept : ¬r.LosesHost) : r.Reread := by
  obtain ⟨named, hof, hurl⟩ := h.url_eq hkept
  have hparse := h.read
  rw [hurl] at hparse
  obtain ⟨hown, hurlOwn⟩ := h.parse_written hof (Or.inl ⟨rfl, rfl⟩) hparse
  rw [← hurl] at hown hurlOwn
  by_cases hkind : kindOf scheme = .file
  · -- No token is put into the address of a file.
    have htoken (token : String) : r.withToken token = r.text := by
      rw [withToken, Url.withUser, if_pos (Or.inr (by rw [hurl]; exact hkind)), RepositoryAddress.text]
    exact ⟨hown, fun token ↦ by rw [htoken]; exact hown,
      fun token ↦ ⟨r.url, by rw [htoken]; exact hurlOwn, rfl, rfl, rfl, rfl, rfl, rfl⟩⟩
  · have hpassword : tokenPassword.toList ≠ [] := by decide
    have htoken (token : String) : parse (r.withToken token) = .ok r ∧
        Url.parse (r.withToken token) =
          .ok (r.url.withUser token.toList tokenPassword.toList) := by
      have hhost : r.url.hostText? = some host := by
        simp [hurl, Url.hostText?, h.text_eq hof, h.isHost.ne_nil]
      have hscheme : kindOf r.url.scheme ≠ .file := by rwa [h.scheme_eq]
      have huser : r.url.withUser token.toList tokenPassword.toList =
          ⟨scheme, Percent.encode Percent.userinfoSet token.toList,
            some (Percent.encode Percent.userinfoSet tokenPassword.toList), some named, port,
              .segments (withSuffix pieces), none, none⟩ := by
        rw [Url.withUser, if_neg (by simp [hhost, hscheme]), hurl]
      have hinfo := isInfo_encode token.toList hpassword
      rw [withToken, huser]
      refine h.parse_written hof hinfo ?_
      rw [Url.parseChars_hostAddress h.isScheme hkind hinfo h.isHost h.isPort h.withSuffix_ne_nil
        h.isSegment, hof]
      rfl
    have hsame (token : String) : let u := r.url.withUser token.toList tokenPassword.toList
        u.scheme = r.url.scheme ∧ u.host = r.url.host ∧ u.port = r.url.port ∧ u.route = r.url.route ∧
          u.query = r.url.query ∧ u.fragment = r.url.fragment := by
      simp only [Url.withUser]
      split <;> exact ⟨rfl, rfl, rfl, rfl, rfl, rfl⟩
    exact ⟨hown, fun token ↦ (htoken token).1, fun token ↦ ⟨_, (htoken token).2, hsame token⟩⟩

/-- The text of an address that lost its host is refused. -/
theorem Rebuilt.parse_of_losesHost (h : Rebuilt r scheme host port pieces) (hlost : r.LosesHost) :
    parse r.text = .error (.missingHost r.text) := by
  have hkind : kindOf scheme = .file := h.scheme_eq ▸ hlost.1
  obtain ⟨named, hof, hurl⟩ := h.file_url_eq hkind
  rw [if_pos ((h.losesHost_iff hof).mp hlost).2] at hurl
  have hne := Url.readSegments_file_ne_nil (Text.joinWith '/' (withSuffix pieces))
  have hsegments : ∀ p ∈ Url.readSegments .file (Text.joinWith '/' (withSuffix pieces)),
      Url.IsSegment .file p := fun p hp ↦ Url.isSegment_of_mem_readSegments hp
  have hvisible := Url.isVisible_chars_of_host_none h.isScheme hkind hne hsegments
  have hparse := Url.parseChars_of_host_none h.isScheme hkind hne hsegments
  rw [← parse_trimmed hvisible, ← hurl] at hparse
  simp [parse, urlOf, RepositoryAddress.text, Url.text, hparse, Url.hostText?, bind, Except.bind]

/-! ### Addresses that were read -/

theorem isWritten_of_urlOf (h : urlOf input = .ok url) : IsWritten url := by
  simp only [urlOf] at h
  split at h
  · cases h
  · rename_i hparse
    split at h
    · cases h
    · obtain rfl := Except.ok.inj h
      exact Url.isWritten_of_parse hparse

theorem isPiece_of_mem_segmentsOf (hurl : IsWritten url) :
    ∀ p ∈ segmentsOf url, IsPiece (kindOf url.scheme) p := by
  intro p hp
  obtain ⟨hmem, hkept⟩ := List.mem_filter.mp hp
  exact ⟨hurl.segments p hmem, by simp_all⟩

theorem rebuilt_of_parse (h : parse input = .ok r) :
    ∃ scheme host port pieces, Rebuilt r scheme host port pieces := by
  cases hurl : urlOf input with
  | error e => simp [parse, hurl, bind, Except.bind] at h
  | ok url =>
    simp only [parse, hurl, bind, Except.bind] at h
    split at h
    · cases h
    · have hwritten := isWritten_of_urlOf hurl
      exact rebuilt_of_ofSegments hwritten (isPiece_of_mem_segmentsOf hwritten) h

/-- What the address of a page is rebuilt from. -/
theorem ofPage_eq_ok {resource href : String} (h : ofPage resource href = .ok r) :
    ∃ url owner name rest, urlOf href = .ok url ∧ segmentsOf url = owner :: name :: rest ∧
      normalizeResource resource.toList = lowerChars (url.hostText?.getD []) ∧
        ofSegments url [owner, name] = .ok r := by
  cases hurl : urlOf href with
  | error e => simp [ofPage, hurl, bind, Except.bind] at h
  | ok url =>
    simp only [ofPage, hurl, bind, Except.bind] at h
    split at h
    · cases h
    · rename_i hhost
      split at h
      · rename_i owner name rest hsegments
        split at h
        · cases h
        · exact ⟨url, owner, name, rest, rfl, hsegments, not_ne_iff.mp hhost, h⟩
      · cases h

theorem rebuilt_of_ofPage {resource href : String} (h : ofPage resource href = .ok r) :
    ∃ scheme host port pieces, Rebuilt r scheme host port pieces := by
  obtain ⟨url, owner, name, rest, hurl, hsegments, -, hof⟩ := ofPage_eq_ok h
  have hwritten := isWritten_of_urlOf hurl
  have hsubset : [owner, name] ⊆ segmentsOf url := by
    rw [hsegments]
    exact (List.sublist_append_left [owner, name] rest).subset
  exact rebuilt_of_ofSegments hwritten
    (fun p hp ↦ isPiece_of_mem_segmentsOf hwritten p (hsubset hp)) hof

/-- The key of a page is that of its resource and the first two segments of its path. -/
theorem key_of_ofPage {resource href : String} (h : ofPage resource href = .ok r) :
    ∃ url owner name rest, urlOf href = .ok url ∧
      url.segments.filter (· ≠ []) = owner :: name :: rest ∧
        r.key = normalize resource (String.ofList (Text.joinWith '/' [owner, name])) := by
  obtain ⟨url, owner, name, rest, hurl, hsegments, hresource, hof⟩ := ofPage_eq_ok h
  have hwritten := isWritten_of_urlOf hurl
  obtain ⟨host, hhost, hkey, hcomplete⟩ := ofSegments_eq_ok hof
  refine ⟨url, owner, name, rest, hurl, ?_, ?_⟩
  · rw [← hsegments, segmentsOf]
    refine List.filter_congr fun p hp ↦ ?_
    simp [isDots_of_isSegment (hwritten.segments p hp)]
  · have hhostText : IsHostText (kindOf url.scheme) host := by
      obtain ⟨hmap, -⟩ := Option.filter_eq_some_iff.mp hhost
      obtain ⟨named, hnamed, rfl⟩ := Option.map_eq_some_iff.mp hmap
      exact hwritten.host named hnamed
    rw [hhost] at hresource
    have hlower : normalizeResource host = lowerChars host := by
      rw [normalizeResource_of_isHostText hhostText]
      split
      · rename_i hdots
        rw [hkey] at hcomplete
        simp [RepositoryKey.isComplete, RepositoryKey.normalize,
          normalizeResource_of_isHostText hhostText, hdots] at hcomplete
      · rfl
    have hsame : normalizeResource resource.toList = normalizeResource host := hresource.trans hlower.symm
    rw [hkey]
    simp [RepositoryKey.normalize, hsame]

/-- The texts of every address that was read are read as the address, unless it is that of a file that
lost its host; then its text is refused. The key of a page is that of its resource and the first two
segments of its path, so that whoever synchronizes the text works on the checkout of that key. -/
theorem reread_of_parse (o : SyncOptions) :
    (∀ r : RepositoryAddress,
      ((∃ input, parse input = .ok r) ∨ ∃ resource href, ofPage resource href = .ok r) →
        (¬r.LosesHost → r.Reread) ∧
          (r.LosesHost → parse r.text = .error (.missingHost r.text))) ∧
    ∀ resource href r, ofPage resource href = .ok r → ∃ url owner name rest,
      urlOf href = .ok url ∧ url.segments.filter (· ≠ []) = owner :: name :: rest ∧
        let key := normalize resource (String.ofList (Text.joinWith '/' [owner, name]))
        r.key = key ∧ (¬r.LosesHost → o.locate r.text = .ok (r, key.checkoutPath o.root)) := by
  have hreread (r : RepositoryAddress)
      (h : (∃ input, parse input = .ok r) ∨ ∃ resource href, ofPage resource href = .ok r) :
      (¬r.LosesHost → r.Reread) ∧ (r.LosesHost → parse r.text = .error (.missingHost r.text)) := by
    obtain ⟨scheme, host, port, pieces, hbuilt⟩ :
        ∃ scheme host port pieces, Rebuilt r scheme host port pieces := by
      rcases h with ⟨input, h⟩ | ⟨resource, href, h⟩
      · exact rebuilt_of_parse h
      · exact rebuilt_of_ofPage h
    exact ⟨hbuilt.reread, hbuilt.parse_of_losesHost⟩
  refine ⟨hreread, fun resource href r h ↦ ?_⟩
  obtain ⟨url, owner, name, rest, hurl, hsegments, hkey⟩ := key_of_ofPage h
  refine ⟨url, owner, name, rest, hurl, hsegments, hkey, fun hkept ↦ ?_⟩
  rw [SyncOptions.locate, ((hreread r (Or.inr ⟨resource, href, h⟩)).1 hkept).text, ← hkey]

theorem eq_ok_of_toOption {ε α : Type} {x : Except ε α} {a : α} (h : x.toOption = some a) :
    x = .ok a := by
  cases x with
  | error e => cases h
  | ok b => rw [Option.some.inj h]

/-- A page of `https://github.com/o/r` and a token with signs of addresses in it. -/
theorem reread_of_page : ∃ r, ofPage "GitHub.com" "https://github.com/o/r/blob/main/a.swift" = .ok r ∧
    ¬r.LosesHost ∧ r.Reread ∧ r.text = "https://github.com/o/r.git" ∧
      parse (r.withToken "a@b:c/") = .ok r ∧
        SyncOptions.locate ⟨⟨"/c"⟩, "git", [], none⟩ r.text = .ok (r, ⟨"/c/github.com/o/r"⟩) := by
  obtain ⟨hreread, hpage⟩ := reread_of_parse ⟨⟨"/c"⟩, "git", [], none⟩
  have hread : (ofPage "GitHub.com" "https://github.com/o/r/blob/main/a.swift").toOption.any (fun r ↦
      decide (¬r.LosesHost) && (r.text = "https://github.com/o/r.git" &&
        r.key.checkoutPath ⟨"/c"⟩ = ⟨"/c/github.com/o/r"⟩)) = true := by
    decide +kernel
  obtain ⟨r, hr, hcheck⟩ := (Option.any_eq_true ..).mp hread
  simp only [Bool.and_eq_true, decide_eq_true_eq] at hcheck
  obtain ⟨hkept, htext, hpath⟩ := hcheck
  have hof : ofPage "GitHub.com" "https://github.com/o/r/blob/main/a.swift" = .ok r :=
    eq_ok_of_toOption hr
  have hown := (hreread r (Or.inr ⟨_, _, hof⟩)).1 hkept
  obtain ⟨url, owner, name, rest, -, -, hkey, hlocate⟩ := hpage _ _ r hof
  refine ⟨r, hof, hkept, hown, htext, hown.token _, ?_⟩
  rw [hlocate hkept, ← hkey, hpath]

/-- The address of a file whose slug begins with a drive is rebuilt without its host: its text is that of
addresses with other hosts, and is refused. -/
theorem exists_lost : ∃ r, parse "file://host//C:/name" = .ok r ∧
    ofPage "host" "file://host//C:/name" = .ok r ∧ r.key = normalize "host" "C:/name" ∧
      r.text = "file:///C:/name.git" ∧
        parse r.text = .error (.missingHost "file:///C:/name.git") := by
  have hread : (parse "file://host//C:/name").toOption.any (fun r ↦
      ((ofPage "host" "file://host//C:/name").toOption = some r && r.key = normalize "host" "C:/name") &&
        (r.text = "file:///C:/name.git" &&
          (match parse r.text with
            | .ok _ => false
            | .error e => e = .missingHost "file:///C:/name.git"))) = true := by
    decide +kernel
  obtain ⟨r, hr, hcheck⟩ := (Option.any_eq_true ..).mp hread
  simp only [Bool.and_eq_true, decide_eq_true_eq] at hcheck
  obtain ⟨⟨hpage, hkey⟩, htext, hrefused⟩ := hcheck
  refine ⟨r, eq_ok_of_toOption hr, eq_ok_of_toOption hpage, hkey, htext, ?_⟩
  split at hrefused
  · cases hrefused
  · rename_i e he
    rw [he, of_decide_eq_true hrefused]

end RepositoryAddress

end CodeNav
