import GladiusMasternode.Model.Router
/-
# The upgrade to HTTPS

`Router` checks the Host header; `RedirectHandler` prefers the host of an absolute-form target to it,
cuts the Host header at its first colon, and takes the first character off the path.

| here | there |
| --- | --- |
| `cutPort`     | the Host header up to its first colon |
| `destination` | the host redirected to |
| `early`       | what has been sent before the redirect |
-/

namespace GladiusMasternode

variable {lib : UrlLib} {config : MasternodeConfig} {sw : Bool} {m : HTTPMessage}

/-! ## `Router` -/

namespace Router

theorem requestIsValid_iff {host : String} : requestIsValid config host = true ↔
    host = config.protected_domain ∨
    (config.ssl_enabled = true ∧
      host = config.protected_domain ++ ":" ++ toString config.ssl_port.toNat) ∨
    host = config.protected_domain ++ ":" ++ toString config.port.toNat := by
  unfold requestIsValid
  by_cases hname : host = config.protected_domain
  · simp [hname]
  · rw [if_neg hname]
    cases config.ssl_enabled <;> simp [hname]

/-- What becomes of a request: an invalid Host is rejected first, then comes the upgrade. -/
theorem onRequest_cases (lib : UrlLib) (config : MasternodeConfig) (sw : Bool) (m : HTTPMessage)
    (secure : Bool) :
    let valid := requestIsValid config ((m.ensureHostHeader lib).headers.rawGet "Host")
    let routed := onRequest lib config sw m secure
    (valid = false ∧ routed = .reject 400 "Bad Request") ∨
    (valid = true ∧ (config.upgrade_insecure && !secure) = true ∧ routed = .redirect) ∨
    (valid = true ∧ (config.upgrade_insecure && !secure) = false ∧
      (routed = .direct ∨ routed = .serviceWorker ∨ routed = .proxy)) := by
  intro valid routed
  cases hvalid : valid with
  | false =>
    refine .inl ⟨rfl, if_pos ?_⟩
    rw [Bool.not_eq_true']
    exact hvalid
  | true =>
    have hok : ¬ (!valid) = true := by
      rw [hvalid]
      exact Bool.false_ne_true
    cases hup : config.upgrade_insecure && !secure with
    | true => exact .inr (.inl ⟨rfl, rfl, (if_neg hok).trans (if_pos hup)⟩)
    | false =>
      refine .inr (.inr ⟨rfl, rfl, ?_⟩)
      have hstays : ¬ (config.upgrade_insecure && !secure) = true := by
        rw [hup]
        exact Bool.false_ne_true
      have hrest : routed = if (m.ensureHostHeader lib).headers.any
            fun h => sameName h.1 DIRECT_HEADER_NAME then .direct
          else if config.enableServiceWorker && sw &&
            (m.ensureHostHeader lib).url = "/gladius-service-worker.js" then .serviceWorker
          else .proxy := (if_neg hok).trans (if_neg hstays)
      rw [hrest]
      split
      · exact .inl rfl
      · split
        · exact .inr (.inl rfl)
        · exact .inr (.inr rfl)

theorem onRequest_redirect_iff {secure : Bool} : onRequest lib config sw m secure = .redirect ↔
    requestIsValid config ((m.ensureHostHeader lib).headers.rawGet "Host") = true ∧
      config.upgrade_insecure = true ∧ secure = false := by
  rcases onRequest_cases lib config sw m secure with
    ⟨hvalid, hrouted⟩ | ⟨hvalid, hup, hrouted⟩ | ⟨hvalid, hup, hrouted⟩
  · simp [hvalid, hrouted]
  · rw [Bool.and_eq_true, Bool.not_eq_true'] at hup
    exact iff_of_true hrouted ⟨hvalid, hup⟩
  · have hno : ¬ (config.upgrade_insecure = true ∧ secure = false) := by
      rintro ⟨hon, hinsecure⟩
      simp [hon, hinsecure] at hup
    rcases hrouted with hrouted | hrouted | hrouted <;> simp [hvalid, hrouted, hno]

end Router

/-! ## `RedirectHandler` -/

namespace RedirectHandler

def cutPort (host : String) : String := String.ofList (host.toList.takeWhile fun c => c != ':')

def destination (url : URL) (host : String) : String := if url.hasHost then url.host else cutPort host

def early (url : URL) (host : String) : List Response :=
  if !url.hasHost && host.isEmpty then [badRequest] else []

/-- The cut at the first colon stays inside the string. -/
theorem redirectHost_eq (url : URL) (host : String) :
    redirectHost url host = some (early url host, destination url host) := by
  unfold redirectHost early destination
  cases url.hasHost with
  | true => simp
  | false =>
    cases hempty : host.isEmpty with
    | true =>
      rw [String.isEmpty_iff] at hempty
      subst hempty
      rfl
    | false =>
      simp only [Bool.false_eq_true, if_false, Bool.not_false, if_true, Bool.and_false]
      have hcut : host.toList.takeWhile (fun c => c != ':') =
          host.toList.take (host.toList.findIdx fun c => c == ':') := by
        rw [List.takeWhile_eq_take_findIdx_not]
        simp [bne]
      unfold findFirstOf cutPort
      rw [hcut]
      cases hfind : host.toList.findIdx? (fun c => c == ':') with
      | none =>
        have hlen := List.findIdx_eq_length.2 (List.findIdx?_eq_none_iff.1 hfind)
        rw [hlen, List.take_length, String.ofList_toList]
      | some colon =>
        obtain ⟨-, hidx⟩ := List.findIdx?_eq_some_iff_findIdx_eq.1 hfind
        rw [hidx]
        rfl

theorem substr_one (s : String) : substr s 1 none = if s = "" then none else
    some (String.ofList s.toList.tail) := by
  unfold substr
  by_cases hs : s = ""
  · subst hs
    rfl
  · have hlen : 1 ≤ s.toList.length := by
      rw [Nat.succ_le_iff, List.length_pos_iff]
      exact mt String.toList_eq_nil_iff.1 hs
    rw [if_pos hlen, if_neg hs, List.drop_one]

/-- `onRequest` gets to its redirect exactly if the path has a first character to take off. -/
theorem onRequest_eq (headers : HTTPMessage) :
    let host := headers.headers.rawGet "Host"
    let url := lib.parse headers.url
    onRequest lib config headers =
      if url.path = "" then { sent := early url host, threw := true }
      else { sent := early url host ++ [temporaryRedirect (lib.print "https" (destination url host)
        config.ssl_port (String.ofList url.path.toList.tail) url.query url.fragment)]
             threw := false } := by
  intro host url
  unfold onRequest
  dsimp only
  rw [redirectHost_eq]
  dsimp only
  rw [substr_one]
  split
  · rename_i hnone
    have hpath : (lib.parse headers.url).path = "" := by
      by_contra hne
      rw [if_neg hne] at hnone
      cases hnone
    rw [if_pos hpath]
  · rename_i path hsome
    have hpath : (lib.parse headers.url).path ≠ "" := by
      intro he
      rw [if_pos he] at hsome
      cases hsome
    rw [if_neg hpath] at hsome ⊢
    rw [Option.some.inj hsome]

/-! ## Where a redirect leads -/

/-- The request's own path and query on a host, over SSL. -/
def upgraded (host : String) (ssl_port : UInt16) (target : RequestTarget) : String :=
  "https://" ++ host ++ ":" ++ toString ssl_port.toNat ++ target.parts.path ++
    if target.parts.query = "" then "" else "?" ++ target.parts.query

/-- A redirect that keeps the domain, and is taken by `Router` when the client follows it. -/
structure Upgrades (lib : UrlLib) (config : MasternodeConfig) (sw : Bool) (target : RequestTarget)
    (r : Response) : Prop where
  location : r.headers.values "Location" =
    [upgraded config.protected_domain config.ssl_port target]
  followed : ∀ (m : HTTPMessage) host, m.headers.values "Host" = [host] →
    host = config.protected_domain ∨
      host = config.protected_domain ++ ":" ++ toString config.ssl_port.toNat →
    Router.onRequest lib config sw m true ≠ .redirect ∧
      ∀ code msg, Router.onRequest lib config sw m true ≠ .reject code msg

/-- The targets that `RedirectHandler` keeps on the protected domain. -/
def StaysOnDomain (config : MasternodeConfig) : RequestTarget → Prop
  | .origin .. => ':' ∉ config.protected_domain.toList
  | .absolute _ host _ path _ => path = "" ∨ host = config.protected_domain
  | .asterisk => False

theorem followed (lib : UrlLib) (sw : Bool) (hssl : config.ssl_enabled = true) {m : HTTPMessage}
    {host : String} (hm : m.headers.values "Host" = [host]) (hhost : host = config.protected_domain ∨
      host = config.protected_domain ++ ":" ++ toString config.ssl_port.toNat) :
    Router.onRequest lib config sw m true ≠ .redirect ∧
      ∀ code msg, Router.onRequest lib config sw m true ≠ .reject code msg := by
  have hkeep : m.ensureHostHeader lib = m := by
    unfold HTTPMessage.ensureHostHeader
    rw [hm]
    rfl
  have hget : m.headers.rawGet "Host" = host := by
    unfold HTTPHeaders.rawGet HTTPHeaders.getSingleOrEmpty
    rw [hm]
  have hvalid : Router.requestIsValid config host = true :=
    Router.requestIsValid_iff.2 (hhost.imp_right fun h => .inl ⟨hssl, h⟩)
  have hcases := Router.onRequest_cases lib config sw m true
  dsimp only at hcases
  rw [hkeep, hget, hvalid] at hcases
  rcases hcases with ⟨hno, -⟩ | ⟨-, hup, -⟩ | ⟨-, -, hrouted⟩
  · cases hno
  · simp at hup
  · rcases hrouted with h | h | h <;> simp [h]

theorem text_upgraded {target : RequestTarget} (host : String) (port : UInt16)
    (hslash : target.parts.path.toList.head? = some '/') :
    URL.text "https" host port (String.ofList target.parts.path.toList.tail) target.parts.query =
      upgraded host port target := by
  have hpath : "/" ++ String.ofList target.parts.path.toList.tail = target.parts.path := by
    rw [← String.toList_inj, String.toList_append]
    simp only [String.toList_ofList]
    cases hl : target.parts.path.toList with
    | nil =>
      rw [hl] at hslash
      cases hslash
    | cons c cs =>
      rw [hl] at hslash
      obtain rfl : c = '/' := Option.some.inj hslash
      rfl
  have hscheme : "https" ++ "://" = "https://" := by decide
  rw [URL.text, hscheme, @String.append_assoc _ "/" _, hpath, upgraded]

/-- Redirects to different hosts are different. -/
theorem upgraded_inj {a b : String} {port : UInt16} {target : RequestTarget}
    (h : upgraded a port target = upgraded b port target) : a = b := by
  rw [← String.toList_inj] at h ⊢
  simp only [upgraded, String.toList_append, List.append_assoc] at h
  exact List.append_cancel_right (List.append_cancel_left h)

/-- A valid Host keeps the domain under the cut if and only if the domain has no colon. -/
theorem cutPort_eq_iff {host : String} (hvalid : Router.requestIsValid config host = true) :
    cutPort host = config.protected_domain ↔ ':' ∉ config.protected_domain.toList := by
  have hform : ∃ rest : List Char, host.toList = config.protected_domain.toList ++ rest ∧
      ∀ c, rest.head? = some c → c = ':' := by
    rcases Router.requestIsValid_iff.1 hvalid with h | ⟨-, h⟩ | h
    · exact ⟨[], by rw [h, List.append_nil], fun c hc => by cases hc⟩
    · refine ⟨':' :: (toString config.ssl_port.toNat).toList, ?_, fun c hc => ?_⟩
      · rw [h, String.toList_append, String.toList_append, List.append_assoc]
        rfl
      · exact (Option.some.inj hc).symm
    · refine ⟨':' :: (toString config.port.toNat).toList, ?_, fun c hc => ?_⟩
      · rw [h, String.toList_append, String.toList_append, List.append_assoc]
        rfl
      · exact (Option.some.inj hc).symm
  obtain ⟨rest, hhost, hrest⟩ := hform
  unfold cutPort
  constructor
  · intro hcut hcolon
    rw [← hcut, String.toList_ofList] at hcolon
    exact absurd (List.mem_takeWhile_imp hcolon) (by decide)
  · intro hcolon
    have hupto := @RequestTarget.takeWhile_upto Char (fun c => c != ':')
      config.protected_domain.toList rest
      (fun c hc => by
        simp only [bne_iff_ne, ne_eq]
        rintro rfl
        exact hcolon hc)
      (fun c hc => by simp [hrest c hc])
    rw [hhost, hupto.1, String.ofList_toList]

/-! ## The redirect of a well-formed target -/

/-- What `onRequest` has parsed, by the form of the target. -/
theorem parse_target (hlib : lib.Spec) {target : RequestTarget} (hwf : target.WellFormed)
    (hurl : m.url = target.render) : lib.parse m.url = URL.ofParts target.parts := by
  rw [hurl]
  exact hlib.parse target hwf

/-- A path that is not empty has a slash in front, but for `*`. -/
theorem head_of_path {target : RequestTarget} (hwf : target.WellFormed) (hstar : target ≠ .asterisk)
    (hpath : target.parts.path ≠ "") : target.parts.path.toList.head? = some '/' := by
  cases hwf with
  | origin hslash _ _ => exact hslash
  | absolute _ _ _ _ hslash _ _ => exact hslash hpath
  | asterisk => exact absurd rfl hstar

theorem values_temporaryRedirect (location : String) :
    (temporaryRedirect location).headers.values "Location" = [location] :=
  HTTPHeaders.values_cons_same location [] (by decide)

/-- The one redirect, where there is one. -/
theorem redirect_location (hlib : lib.Spec) {target : RequestTarget} (hwf : target.WellFormed)
    (hstar : target ≠ .asterisk) (hurl : m.url = target.render) {r : Response}
    (hr : r ∈ (onRequest lib config m).sent) (hstatus : r.status = 307) :
    target.parts.path ≠ "" ∧ r.headers.values "Location" = [upgraded
      (destination (URL.ofParts target.parts) (m.headers.rawGet "Host")) config.ssl_port target] := by
  have heq := @onRequest_eq lib config m
  dsimp only at heq
  rw [parse_target hlib hwf hurl] at heq
  have hearly : ∀ r ∈ early (URL.ofParts target.parts) (m.headers.rawGet "Host"), r.status = 400 := by
    intro r hr
    unfold early at hr
    split at hr
    · rw [List.mem_singleton.1 hr]
      rfl
    · cases hr
  have hpath : target.parts.path ≠ "" := by
    intro hempty
    rw [heq, if_pos (show (URL.ofParts target.parts).path = "" from hempty)] at hr
    rw [hearly r hr] at hstatus
    cases hstatus
  rw [heq, if_neg (show (URL.ofParts target.parts).path ≠ "" from hpath)] at hr
  rcases List.mem_append.1 hr with hr | hr
  · rw [hearly r hr] at hstatus
    cases hstatus
  · refine ⟨hpath, ?_⟩
    rw [List.mem_singleton.1 hr, values_temporaryRedirect]
    show [lib.print "https" _ config.ssl_port (String.ofList target.parts.path.toList.tail)
      target.parts.query ""] = _
    rw [hlib.print, text_upgraded _ _ (head_of_path hwf hstar hpath)]

/-- With a path there is a redirect. -/
theorem redirect_sent (hlib : lib.Spec) {target : RequestTarget} (hwf : target.WellFormed)
    (hurl : m.url = target.render) (hpath : target.parts.path ≠ "") :
    ∃ r ∈ (onRequest lib config m).sent, r.status = 307 := by
  have heq := @onRequest_eq lib config m
  dsimp only at heq
  rw [parse_target hlib hwf hurl,
    if_neg (show (URL.ofParts target.parts).path ≠ "" from hpath)] at heq
  rw [heq]
  exact ⟨_, List.mem_append_right _ (List.mem_singleton_self _), rfl⟩

/-- The destination is the protected domain exactly for the targets that stay on it. -/
theorem destination_eq_iff {target : RequestTarget} (hwf : target.WellFormed)
    (hstar : target ≠ .asterisk) (hpath : target.parts.path ≠ "") {host : String}
    (hvalid : Router.requestIsValid config host = true) :
    destination (URL.ofParts target.parts) host = config.protected_domain ↔
      StaysOnDomain config target := by
  cases hwf with
  | origin hslash _ _ => exact cutPort_eq_iff hvalid
  | @absolute scheme name port path query _ _ hhost _ _ _ _ =>
    have hhas : (URL.ofParts (RequestTarget.parts (.absolute scheme name port path query))).hasHost =
        true := decide_eq_true hhost.nonempty
    rw [destination, if_pos hhas]
    exact (or_iff_right hpath).symm
  | asterisk => exact absurd rfl hstar

theorem ssl_of_upgrade {flags : Flags}
    (hup : (MasternodeConfig.ofFlags flags).upgrade_insecure = true) :
    (MasternodeConfig.ofFlags flags).ssl_enabled = true := by
  unfold MasternodeConfig.ofFlags at hup ⊢
  dsimp only at hup ⊢
  split at hup
  · rename_i h
    rw [if_pos h]
  · cases hup

/-- **The upgrade stays on the protected domain** exactly for the targets `StaysOnDomain` names. -/
theorem upgrades_iff (hlib : lib.Spec) (flags : Flags) (sw : Bool) {m : HTTPMessage}
    {target : RequestTarget} (hwf : target.WellFormed) (hstar : target ≠ .asterisk)
    (hurl : m.url = target.render)
    (hroute : Router.onRequest lib (MasternodeConfig.ofFlags flags) sw m false = .redirect) :
    let config := MasternodeConfig.ofFlags flags
    (∀ r ∈ (onRequest lib config (m.ensureHostHeader lib)).sent, r.status = 307 →
      Upgrades lib config sw target r) ↔ StaysOnDomain config target := by
  intro config
  obtain ⟨hvalid, hup, -⟩ := Router.onRequest_redirect_iff.1 hroute
  have hssl : config.ssl_enabled = true := ssl_of_upgrade hup
  have hurl' : (m.ensureHostHeader lib).url = target.render := by
    rw [HTTPMessage.ensureHostHeader_url, hurl]
  constructor
  · intro hall
    by_cases hpath : target.parts.path = ""
    · -- only an absolute form has no path
      cases hwf with
      | @origin path query hslash _ _ =>
        rw [show path = "" from hpath] at hslash
        cases hslash
      | absolute => exact .inl hpath
      | asterisk => exact absurd rfl hstar
    · obtain ⟨r, hr, hstatus⟩ := redirect_sent hlib hwf hurl' hpath
      have hloc := (redirect_location hlib hwf hstar hurl' hr hstatus).2
      rw [(hall r hr hstatus).location] at hloc
      exact (destination_eq_iff hwf hstar hpath hvalid).1 (upgraded_inj (List.cons.inj hloc).1).symm
  · intro hstays r hr hstatus
    obtain ⟨hpath, hloc⟩ := redirect_location hlib hwf hstar hurl' hr hstatus
    refine ⟨?_, fun m host hm hhost => followed lib sw hssl hm hhost⟩
    rw [hloc, (destination_eq_iff hwf hstar hpath hvalid).2 hstays]

section

def protecting (protected_domain : String) : Flags :=
  { protected_domain := protected_domain, cert_path := "cert.pem", key_path := "key.pem" }

def request (url host : String) : HTTPMessage := { url := url, headers := [("Host", host)] }

def index : RequestTarget := .origin "/index" (some "a=1")

theorem wellFormed_index : index.WellFormed := by
  have hpath : ("/index".toList.all fun c => !RequestTarget.endsPath c) = true := by decide +kernel
  refine .origin rfl (fun c hc => by simpa using List.all_eq_true.1 hpath c hc) ?_
  intro q hq
  rw [← Option.some.inj hq]
  decide +kernel

theorem upgrades_index :
    let config := MasternodeConfig.ofFlags (protecting "example.org")
    let m := request "/index?a=1" "example.org"
    ∀ r ∈ (onRequest urlRef config (m.ensureHostHeader urlRef)).sent, r.status = 307 →
      Upgrades urlRef config false index r :=
  (upgrades_iff spec_urlRef (protecting "example.org") false wellFormed_index (by decide)
    (by decide : (request "/index?a=1" "example.org").url = index.render) (by decide +kernel)).2
      (show ':' ∉ "example.org".toList by decide)

/-- A target on another host, with a Host header that passes. -/
def elsewhere : RequestTarget := .absolute "http" "evil.example" none "/x" none

/-- Redirected to another host, and to the first piece of an address. -/
theorem off_the_domain :
    (let config := MasternodeConfig.ofFlags (protecting "example.org")
    let m := request elsewhere.render "example.org"
    Router.onRequest urlRef config false m false = .redirect ∧
    (onRequest urlRef config (m.ensureHostHeader urlRef)).sent =
      [temporaryRedirect "https://evil.example:443/x"] ∧
    ¬ ∀ r ∈ (onRequest urlRef config (m.ensureHostHeader urlRef)).sent, r.status = 307 →
      Upgrades urlRef config false elsewhere r) ∧
    (let config := MasternodeConfig.ofFlags (protecting "[::1]")
    let m := request index.render "[::1]"
    Router.onRequest urlRef config false m false = .redirect ∧
    (onRequest urlRef config (m.ensureHostHeader urlRef)).sent =
      [temporaryRedirect "https://[:443/index?a=1"] ∧
    ¬ ∀ r ∈ (onRequest urlRef config (m.ensureHostHeader urlRef)).sent, r.status = 307 →
      Upgrades urlRef config false index r) := by
  refine ⟨⟨by decide +kernel, by decide +kernel, fun hall => ?_⟩,
    ⟨by decide +kernel, by decide +kernel, fun hall => ?_⟩⟩
  · have hup := hall (temporaryRedirect "https://evil.example:443/x") (by decide +kernel) rfl
    exact absurd hup.location (by decide +kernel)
  · have hup := hall (temporaryRedirect "https://[:443/index?a=1") (by decide +kernel) rfl
    exact absurd hup.location (by decide +kernel)

end

/-! ## One answer -/

/-- One response, a 400 or a 307, and no exception. -/
def AnswersOnce (reply : Reply) : Prop :=
  ∃ r, reply.sent = [r] ∧ (r.status = 400 ∨ r.status = 307) ∧ reply.threw = false

/-- An absolute form has a path, any other target comes with a Host. -/
def Answerable (host : String) : RequestTarget → Prop
  | .absolute _ _ _ path _ => path ≠ ""
  | .origin .. | .asterisk => host ≠ ""

theorem early_eq_nil_iff {target : RequestTarget} {host : String} (hwf : target.WellFormed) :
    target.parts.path ≠ "" ∧ early (URL.ofParts target.parts) host = [] ↔ Answerable host target := by
  have hearly : ∀ url : URL, early url host = [] ↔ url.hasHost = true ∨ host ≠ "" := by
    intro url
    unfold early
    cases url.hasHost <;> simp [String.isEmpty_iff]
  rw [hearly]
  cases hwf with
  | @origin path query hslash _ _ =>
    have hpath : path ≠ "" := by
      rintro rfl
      cases hslash
    simp [Answerable, RequestTarget.parts, URL.ofParts, hpath]
  | absolute _ _ hhost _ _ _ _ =>
    simp [Answerable, RequestTarget.parts, URL.ofParts, hhost.nonempty]
  | asterisk => simp [Answerable, RequestTarget.parts, URL.ofParts]

/-- **One answer and no throw** exactly for the answerable requests. -/
theorem answersOnce_iff (hlib : lib.Spec) (config : MasternodeConfig) {m : HTTPMessage}
    {target : RequestTarget} (hwf : target.WellFormed) (hurl : m.url = target.render) :
    AnswersOnce (onRequest lib config m) ↔ Answerable (m.headers.rawGet "Host") target := by
  have heq := @onRequest_eq lib config m
  dsimp only at heq
  rw [parse_target hlib hwf hurl] at heq
  rw [heq, ← early_eq_nil_iff hwf]
  by_cases hpath : target.parts.path = ""
  · rw [if_pos (show (URL.ofParts target.parts).path = "" from hpath)]
    constructor
    · rintro ⟨r, -, -, hthrew⟩
      cases hthrew
    · rintro ⟨hne, -⟩
      exact absurd hpath hne
  · rw [if_neg (show (URL.ofParts target.parts).path ≠ "" from hpath), and_iff_right hpath]
    constructor
    · rintro ⟨r, hsent, -, -⟩
      exact (List.append_eq_singleton_iff.1 hsent).elim And.left fun h => absurd h.2 (by simp)
    · intro hnone
      exact ⟨_, by rw [hnone]; rfl, .inr rfl, rfl⟩

section

theorem answersOnce_index : AnswersOnce (onRequest urlRef
    (MasternodeConfig.ofFlags (protecting "example.org")) (request "/index?a=1" "example.org")) :=
  (answersOnce_iff spec_urlRef _ wellFormed_index
    (by decide : (request "/index?a=1" "example.org").url = index.render)).2
      (show (request "/index?a=1" "example.org").headers.rawGet "Host" ≠ "" by decide +kernel)

/-- An absolute form without a path ends the process; without a domain to protect an empty Host
passes and is answered twice. -/
theorem throws_or_answers_twice :
    (let config := MasternodeConfig.ofFlags (protecting "example.org")
    let m := request "http://example.org" "example.org"
    Router.onRequest urlRef config false m false = .redirect ∧
    onRequest urlRef config (m.ensureHostHeader urlRef) = { sent := [], threw := true } ∧
    ¬ AnswersOnce (onRequest urlRef config (m.ensureHostHeader urlRef))) ∧
    (let config := MasternodeConfig.ofFlags (protecting "")
    let m := request "/" ""
    Router.onRequest urlRef config false m false = .redirect ∧
    (onRequest urlRef config (m.ensureHostHeader urlRef)).sent.map Response.status = [400, 307] ∧
    ¬ AnswersOnce (onRequest urlRef config (m.ensureHostHeader urlRef))) := by
  have hthrown : onRequest urlRef (MasternodeConfig.ofFlags (protecting "example.org"))
      ((request "http://example.org" "example.org").ensureHostHeader urlRef) =
      { sent := [], threw := true } := by decide +kernel
  have htwice : (onRequest urlRef (MasternodeConfig.ofFlags (protecting ""))
      ((request "/" "").ensureHostHeader urlRef)).sent.map Response.status = [400, 307] := by
    decide +kernel
  refine ⟨⟨by decide +kernel, hthrown, ?_⟩, ⟨by decide +kernel, htwice, ?_⟩⟩
  · rintro ⟨r, hsent, -, -⟩
    rw [hthrown] at hsent
    cases hsent
  · rintro ⟨r, hsent, -, -⟩
    rw [hsent] at htwice
    simp at htwice

end

end RedirectHandler

end GladiusMasternode
