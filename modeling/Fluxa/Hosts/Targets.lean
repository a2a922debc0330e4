import Fluxa.Services.Webhooks
import Fluxa.Hosts.Whatwg

/-!
# Hosts — Webhook targets

`validate_webhook_url` against the URL standard, by which the HTTP client reads the host of an accepted URL.

**Internal targets** (`targets_public_iff`).  The check reads a host as `std::net` does, the client by the URL standard.  They agree on the usual spellings; a URL that passes the other checks reaches an internal address exactly when its host is a **`Disguised`** one: an internal IPv4 address in another spelling than the dotted quad, or an IPv6 address that maps an internal IPv4 address.
-/

namespace Fluxa
open Webhooks Whatwg IpAddr

/-- The hosts of `http::Uri` are ASCII, with a percent sign at most in brackets. -/
def AsciiHosts (parseUri : String → Option Uri) : Prop :=
  ∀ text uri host, parseUri text = some uri → uri.host = some host →
    host.toList.head? ≠ some '[' → ∀ c ∈ host.toList, c.toNat < 128 ∧ c ≠ '%'

/-- The HTTP client takes the same host from a URL as `http::Uri`. -/
def SameHost (parseUri : String → Option Uri) (clientHost : String → Option String) : Prop :=
  ∀ text uri, parseUri text = some uri → clientHost text = uri.host

/-- A URL that the check accepts reaches no internal address: the host that the HTTP client takes
from it denotes none. -/
def TargetsPublic (app : App) (clientHost : String → Option String) (m : DomainMapping)
    (url : String) : Prop :=
  ∀ target host addr, validateWebhookUrl app url false = .ok target →
    clientHost target = some host → parseHost m host.toList = some addr → ¬ addr.Internal

/-- An internal IPv4 address that is not written as a dotted quad. -/
def unusualV4 (host : List Char) : Bool :=
  IpAddr.parseIpv4 host = none &&
    (hostNumber (asciiLower host)).any fun
      | .v4 a b c d => decide (InternalV4 a b c d)
      | .v6 _ => false

/-- An internal IPv4 address in another spelling than the dotted quad, or mapped by an IPv6 address
in brackets. -/
def Disguised : List Char → Bool
  | '[' :: rest => rest.getLast? = some ']' && (parseIpv6 rest.dropLast).any fun segments =>
      decide (MapsInternal segments)
  | host => unusualV4 host

/-- The URL passes every check before the one of its host. -/
def ReachesHostCheck (app : App) (url host : String) : Prop :=
  trim url ≠ "" ∧ (trim url).utf8ByteSize ≤ maxWebhookUrlLength ∧
    ∃ uri, app.lib.parseUri (trim url) = some uri ∧
      (uri.scheme = some "http" ∨ uri.scheme = some "https") ∧ uri.host = some host

/-! ### The check -/

/-- What the check accepts. -/
theorem validateWebhookUrl_ok {app : App} {url target : String} :
    validateWebhookUrl app url false = .ok target ↔
      target = trim url ∧ ∃ host, ReachesHostCheck app url host ∧ isPrivateHost host = false := by
  constructor
  · intro h
    unfold validateWebhookUrl at h
    dsimp only at h
    split at h
    · cases h
    · rename_i hblank
      split at h
      · cases h
      · rename_i hlength
        split at h
        · cases h
        · rename_i uri huri
          split at h
          · cases h
          · rename_i hscheme
            split at h
            · cases h
            · rename_i host hhost
              split at h
              · cases h
              · rename_i hprivate
                obtain rfl : trim url = target := Except.ok.inj h
                refine ⟨rfl, host, ⟨hblank, Nat.not_lt.mp hlength, uri, huri, ?_, hhost⟩, ?_⟩
                · by_contra hnone
                  exact hscheme (not_or.mp hnone)
                · simpa using hprivate
  · rintro ⟨rfl, host, ⟨hblank, hlength, uri, huri, hscheme, hhost⟩, hpublic⟩
    unfold validateWebhookUrl
    dsimp only
    rw [if_neg hblank, if_neg (Nat.not_lt.mpr hlength), huri]
    dsimp only
    rw [if_neg fun h => hscheme.elim h.1 h.2, hhost]
    simp [hpublic]

theorem isPrivateAddr_v4 {a b c d : Nat} :
    isPrivateAddr (.v4 a b c d) = true ↔ InternalV4 a b c d := by
  unfold isPrivateAddr InternalV4
  simp only [Bool.or_eq_true, Bool.and_eq_true, decide_eq_true_eq]
  tauto

theorem isPrivateAddr_v6 {segments : List Nat} :
    isPrivateAddr (.v6 segments) = true ↔ InternalV6 segments := by
  unfold isPrivateAddr InternalV6
  simp only [Bool.or_eq_true, decide_eq_true_eq]
  tauto

/-- An address that maps another is itself none of the internal ones. -/
theorem not_internalV6_of_mapsInternal {segments : List Nat} (h : MapsInternal segments) :
    ¬ InternalV6 segments := by
  unfold MapsInternal mappedV4 at h
  split at h
  · simp [InternalV6]
  · cases h

theorem dropWhile_eq_self {p : Char → Bool} {text : List Char} (h : ∀ c ∈ text, p c = false) :
    text.dropWhile p = text := by
  cases text with
  | nil => rfl
  | cons c rest => exact List.dropWhile_cons_of_neg (by simp [h c List.mem_cons_self])

/-- The host without its brackets. -/
theorem withoutBrackets_eq {host inner : List Char} (hopen : '[' ∉ inner) (hclose : ']' ∉ inner)
    (hhost : host = inner ∨ host = '[' :: (inner ++ [']'])) :
    withoutBrackets (String.ofList host) = String.ofList inner := by
  have hfirst : ∀ tail : List Char, tail = [] ∨ tail = [']'] →
      (inner ++ tail).dropWhile (· = '[') = inner ++ tail := by
    intro tail htail
    refine dropWhile_eq_self fun c hc => decide_eq_false ?_
    rintro rfl
    rcases List.mem_append.mp hc with hc | hc
    · exact hopen hc
    · rcases htail with rfl | rfl
      · cases hc
      · exact absurd (List.mem_singleton.mp hc) (by decide)
  have hlast : inner.reverse.dropWhile (· = ']') = inner.reverse := by
    refine dropWhile_eq_self fun c hc => decide_eq_false ?_
    rintro rfl
    exact hclose (List.mem_reverse.mp hc)
  unfold withoutBrackets
  dsimp only
  rw [String.toList_ofList]
  rcases hhost with rfl | rfl
  · have := hfirst [] (.inl rfl)
    rw [List.append_nil] at this
    rw [this, hlast, List.reverse_reverse]
  · rw [List.dropWhile_cons_of_pos (by decide), hfirst [']'] (.inr rfl), List.reverse_append,
      List.reverse_singleton, List.singleton_append, List.dropWhile_cons_of_pos (by decide), hlast,
      List.reverse_reverse]

/-- What the check makes of a host, by the text between its brackets. -/
theorem isPrivateHost_eq {host inner : List Char} (hopen : '[' ∉ inner) (hclose : ']' ∉ inner)
    (hhost : host = inner ∨ host = '[' :: (inner ++ [']'])) :
    isPrivateHost (String.ofList host) =
      (decide (asciiLower inner = "localhost".toList) || (IpAddr.parse inner).any isPrivateAddr) := by
  unfold isPrivateHost
  dsimp only
  rw [withoutBrackets_eq hopen hclose hhost, toAsciiLowercase, String.toList_ofList]
  congr 1
  refine decide_eq_decide.mpr ⟨fun h => ?_, fun h => ?_⟩
  · rw [← h, String.toList_ofList]
    rfl
  · rw [← String.ofList_toList (s := "localhost"), ← h]
    rfl

/-! ### The two readings of a host -/

/-- The check lets the host pass, and the client reads an internal address in it. -/
def Escapes (m : DomainMapping) (host : List Char) : Prop :=
  isPrivateHost (String.ofList host) = false ∧ ∃ addr, parseHost m host = some addr ∧ addr.Internal

theorem not_bracket_of_groupChar {c : Char} (h : IsGroupChar c) : c ≠ '[' ∧ c ≠ ']' := by
  rcases h with rfl | rfl | h
  · decide
  · decide
  · constructor
    · rintro rfl
      exact absurd h (by decide)
    · rintro rfl
      exact absurd h (by decide)

/-- An IPv6 address is not a dotted quad. -/
theorem parse_of_parseIpv6 {text : List Char} {segments : List Nat}
    (h : parseIpv6 text = some segments) : IpAddr.parse text = some (.v6 segments) := by
  unfold IpAddr.parse
  split
  · rename_i hquad
    rcases isDigit_of_parseIpv4 hquad ':' (colon_of_parseIpv6 h) with hc | hc
    · exact absurd hc (by decide)
    · exact absurd hc (by decide)
  · rw [h, Option.map_some]

/-- The check on an IPv6 address in brackets. -/
theorem isPrivateHost_v6 {inner : List Char} {segments : List Nat}
    (h : parseIpv6 inner = some segments) :
    isPrivateHost (String.ofList ('[' :: (inner ++ [']']))) = true ↔ InternalV6 segments := by
  have hchars := groupChar_of_parseIpv6 h
  rw [isPrivateHost_eq (fun hc => (not_bracket_of_groupChar (hchars _ hc)).1 rfl)
    (fun hc => (not_bracket_of_groupChar (hchars _ hc)).2 rfl) (.inr rfl), parse_of_parseIpv6 h]
  have hname : asciiLower inner ≠ "localhost".toList := by
    intro heq
    have hcolon : ':' ∈ asciiLower inner := List.mem_map.mpr ⟨':', colon_of_parseIpv6 h, by decide⟩
    rw [heq] at hcolon
    exact absurd hcolon (by decide)
  rw [decide_eq_false hname, Bool.false_or, Option.any_some, isPrivateAddr_v6]

theorem escapes_bracketed {m : DomainMapping} {rest : List Char} :
    Escapes m ('[' :: rest) ↔ Disguised ('[' :: rest) = true := by
  simp only [Disguised, Bool.and_eq_true, decide_eq_true_eq]
  constructor
  · rintro ⟨hpublic, addr, haddr, hinternal⟩
    simp only [parseHost] at haddr
    split at haddr
    · rename_i hclose
      obtain ⟨segments, hsegments, rfl⟩ := Option.map_eq_some_iff.mp haddr
      obtain ⟨inner, rfl⟩ := List.getLast?_eq_some_iff.mp hclose
      rw [List.dropLast_concat] at hsegments ⊢
      refine ⟨hclose, ?_⟩
      rw [hsegments, Option.any_some, decide_eq_true_eq]
      refine hinternal.resolve_left fun h => ?_
      rw [(isPrivateHost_v6 hsegments).mpr h] at hpublic
      cases hpublic
    · cases haddr
  · rintro ⟨hclose, hmaps⟩
    obtain ⟨inner, rfl⟩ := List.getLast?_eq_some_iff.mp hclose
    rw [List.dropLast_concat, Option.any_eq_true] at hmaps
    obtain ⟨segments, hsegments, hmaps⟩ := hmaps
    have hmaps := of_decide_eq_true hmaps
    refine ⟨?_, .v6 segments, ?_, .inr hmaps⟩
    · rw [Bool.eq_false_iff]
      exact fun h => not_internalV6_of_mapsInternal hmaps ((isPrivateHost_v6 hsegments).mp h)
    · simp only [parseHost]
      rw [if_pos hclose, List.dropLast_concat, hsegments, Option.map_some]

theorem isAlphanum_of_toLower {c : Char} (h : c.toLower.isAlphanum = true ∨ c.toLower = '.') :
    c.isAlphanum = true ∨ c = '.' := by
  by_cases hupper : c.isUpper = true
  · left
    simp [Char.isAlphanum, Char.isAlpha, hupper]
  · have hsame : c.toLower = c := by
      unfold Char.toLower
      rw [dif_neg]
      intro hc
      apply hupper
      simpa [Char.isUpper] using hc
    rwa [hsame] at h

/-- A host that the client reads as a number has letters, digits and dots only. -/
theorem plain_of_hostNumber {host : List Char} {addr : IpAddr}
    (h : hostNumber (asciiLower host) = some addr) :
    ∀ c ∈ host, c.isAlphanum = true ∨ c = '.' := fun c hc =>
  isAlphanum_of_toLower (isAlphanum_of_hostNumber h c.toLower (List.mem_map.mpr ⟨c, hc, rfl⟩))

theorem not_mem_of_plain {host : List Char} {c : Char}
    (h : ∀ c ∈ host, c.isAlphanum = true ∨ c = '.') (hc : c.isAlphanum = false ∧ c ≠ '.') :
    c ∉ host := by
  intro hmem
  rcases h c hmem with h | h
  · rw [hc.1] at h
    cases h
  · exact hc.2 h

/-- The check on a host that the client reads as a number. -/
theorem isPrivateHost_number {host : List Char} {addr : IpAddr}
    (h : hostNumber (asciiLower host) = some addr) :
    isPrivateHost (String.ofList host) = true ↔
      ∃ a b c d, IpAddr.parseIpv4 host = some (a, b, c, d) ∧ InternalV4 a b c d := by
  have hplain := plain_of_hostNumber h
  rw [isPrivateHost_eq (not_mem_of_plain hplain (by decide)) (not_mem_of_plain hplain (by decide))
    (.inl rfl)]
  have hname : asciiLower host ≠ "localhost".toList := by
    intro heq
    rw [heq, show hostNumber "localhost".toList = none by decide +kernel] at h
    cases h
  rw [decide_eq_false hname, Bool.false_or]
  unfold IpAddr.parse
  cases hquad : IpAddr.parseIpv4 host with
  | some q =>
      rw [Option.any_some, isPrivateAddr_v4]
      constructor
      · exact fun hi => ⟨_, _, _, _, rfl, hi⟩
      · rintro ⟨a, b, c, d, heq, hi⟩
        cases heq
        exact hi
  | none =>
      have hno : parseIpv6 host = none := by
        rw [Option.eq_none_iff_forall_not_mem]
        exact fun segments hs => not_mem_of_plain hplain (by decide) (colon_of_parseIpv6 hs)
      rw [hno]
      simp

/-- A number is an IPv4 address. -/
theorem v4_of_hostNumber {domain : List Char} {addr : IpAddr} (h : hostNumber domain = some addr) :
    ∃ a b c d, addr = .v4 a b c d := by
  unfold hostNumber at h
  split at h
  · obtain ⟨value, -, rfl⟩ := Option.map_eq_some_iff.mp h
    exact ⟨_, _, _, _, rfl⟩
  · cases h

/-- What `unusualV4` says. -/
theorem unusualV4_iff {host : List Char} :
    unusualV4 host = true ↔ IpAddr.parseIpv4 host = none ∧
      ∃ a b c d, hostNumber (asciiLower host) = some (.v4 a b c d) ∧ InternalV4 a b c d := by
  unfold unusualV4
  rw [Bool.and_eq_true, decide_eq_true_eq, Option.any_eq_true]
  refine and_congr_right fun _ => ⟨?_, ?_⟩
  · rintro ⟨addr, haddr, hi⟩
    obtain ⟨a, b, c, d, rfl⟩ := v4_of_hostNumber haddr
    exact ⟨a, b, c, d, haddr, of_decide_eq_true hi⟩
  · rintro ⟨a, b, c, d, haddr, hi⟩
    exact ⟨.v4 a b c d, haddr, decide_eq_true hi⟩

theorem escapes_plain {m : DomainMapping} {host : List Char} (hopen : host.head? ≠ some '[')
    (hascii : ∀ c ∈ host, c.toNat < 128 ∧ c ≠ '%') :
    Escapes m host ↔ unusualV4 host = true := by
  have hparse : parseHost m host = (m.toAscii host).bind hostNumber := by
    unfold parseHost
    split
    · exact absurd rfl hopen
    · rfl
  rw [unusualV4_iff]
  constructor
  · rintro ⟨hpublic, addr, haddr, hinternal⟩
    rw [hparse] at haddr
    obtain ⟨domain, hdomain, hnumber⟩ := Option.bind_eq_some_iff.mp haddr
    obtain rfl := m.toAscii_ascii hascii hdomain
    obtain ⟨a, b, c, d, rfl⟩ := v4_of_hostNumber hnumber
    refine ⟨?_, a, b, c, d, hnumber, hinternal⟩
    -- A dotted quad would be read alike by both, and be refused.
    by_contra hquad
    obtain ⟨⟨a', b', c', d'⟩, hquad⟩ := Option.ne_none_iff_exists'.mp hquad
    rw [hostNumber_of_parseIpv4 hquad] at hnumber
    cases hnumber
    rw [(isPrivateHost_number (hostNumber_of_parseIpv4 hquad)).mpr ⟨a, b, c, d, hquad, hinternal⟩]
      at hpublic
    cases hpublic
  · rintro ⟨hquad, a, b, c, d, hnumber, hinternal⟩
    refine ⟨?_, .v4 a b c d, ?_, hinternal⟩
    · rw [Bool.eq_false_iff]
      intro hprivate
      obtain ⟨_, _, _, _, hsome, -⟩ := (isPrivateHost_number hnumber).mp hprivate
      rw [hquad] at hsome
      cases hsome
    · have hne : host ≠ [] := by
        rintro rfl
        exact absurd hnumber (by rw [show hostNumber (asciiLower []) = none by decide +kernel]; simp)
      rw [hparse, m.toAscii_plain hne (plain_of_hostNumber hnumber)]
      exact hnumber

/-- **A host escapes the check exactly when it is disguised.** -/
theorem escapes_iff {m : DomainMapping} {host : List Char}
    (hascii : host.head? ≠ some '[' → ∀ c ∈ host, c.toNat < 128 ∧ c ≠ '%') :
    Escapes m host ↔ Disguised host = true := by
  by_cases hopen : host.head? = some '['
  · obtain ⟨rest, rfl⟩ := List.head?_eq_some_iff.mp hopen
    exact escapes_bracketed
  · rw [escapes_plain hopen (hascii hopen)]
    unfold Disguised
    split
    · exact absurd rfl hopen
    · rfl

/-! ### Accepted URLs -/

/-- **The webhook URL check excludes internal targets** unless the host is a disguised one. -/
theorem targets_public_iff {app : App} {clientHost : String → Option String} {m : DomainMapping}
    {url : String} (hascii : AsciiHosts app.lib.parseUri)
    (hsame : SameHost app.lib.parseUri clientHost) :
    TargetsPublic app clientHost m url ↔
      ∀ host, ReachesHostCheck app url host → Disguised host.toList = false := by
  constructor
  · intro h host hreach
    obtain ⟨hblank, hlength, uri, huri, hscheme, hhost⟩ := hreach
    rw [Bool.eq_false_iff]
    intro hdisguised
    obtain ⟨hpublic, addr, haddr, hinternal⟩ :=
      (escapes_iff (m := m) (hascii _ _ _ huri hhost)).mpr hdisguised
    rw [String.ofList_toList] at hpublic
    exact h (trim url) host addr
      (validateWebhookUrl_ok.mpr ⟨rfl, host, ⟨hblank, hlength, uri, huri, hscheme, hhost⟩, hpublic⟩)
      ((hsame _ _ huri).trans hhost) haddr hinternal
  · intro h target host addr hok hclient haddr hinternal
    obtain ⟨rfl, host', hreach, hpublic⟩ := validateWebhookUrl_ok.mp hok
    have hplain := h host' hreach
    obtain ⟨-, -, uri, huri, -, hhost⟩ := hreach
    rw [hsame _ _ huri, hhost] at hclient
    obtain rfl := Option.some.inj hclient
    rw [← String.ofList_toList (s := host')] at hpublic
    have hescapes : Escapes m host'.toList := ⟨hpublic, addr, haddr, hinternal⟩
    have hdisguised := (escapes_iff (hascii _ _ _ huri hhost)).mp hescapes
    exact absurd (hplain.symm.trans hdisguised) Bool.false_ne_true

/-- An application whose URLs have the given host. -/
def appWithHost (host : String) : App :=
  { (default : App) with
    lib := { (default : Libraries) with parseUri := fun _ => some ⟨some "http", some host⟩ } }

theorem sameHost_appWithHost (host : String) :
    SameHost (appWithHost host).lib.parseUri fun _ => some host := by
  intro text uri huri
  obtain rfl : ⟨some "http", some host⟩ = uri := Option.some.inj huri
  rfl

/-- `http://127.1/hook` is accepted, and reaches the loopback address. -/
theorem short_loopback_accepted :
    ¬ TargetsPublic (appWithHost "127.1") (fun _ => some "127.1") asciiMapping
      "http://127.1/hook" := fun h =>
  h "http://127.1/hook" "127.1" (.v4 127 0 0 1) (by decide +kernel) rfl (by decide +kernel) (.inl rfl)

theorem host_of_appWithHost {text host host' : String} {uri : Uri}
    (huri : (appWithHost host).lib.parseUri text = some uri) (hhost : uri.host = some host') :
    host' = host := by
  obtain rfl : ⟨some "http", some host⟩ = uri := Option.some.inj huri
  exact (Option.some.inj hhost).symm

/-- A URL with a public host reaches no internal address. -/
theorem targets_public_iff_publicHost :
    TargetsPublic (appWithHost "203.0.113.7") (fun _ => some "203.0.113.7") asciiMapping
      "http://203.0.113.7/hook" := by
  refine (targets_public_iff ?_ (sameHost_appWithHost _)).mpr ?_
  · intro text uri host huri hhost _
    rw [host_of_appWithHost huri hhost]
    have hall : "203.0.113.7".toList.all (fun c => c.toNat < 128 && c ≠ '%') = true := by
      decide +kernel
    intro c hc
    simpa using List.all_eq_true.mp hall c hc
  · rintro host ⟨-, -, uri, huri, -, hhost⟩
    rw [host_of_appWithHost huri hhost]
    decide +kernel

end Fluxa
