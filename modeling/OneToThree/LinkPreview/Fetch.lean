import OneToThree.Lib.JsonUnits
import OneToThree.Lib.Program
import OneToThree.LinkPreview.Ssrf

/-!
# Fetching on behalf of a user

The server fetches pages for previews, and GIFs, from addresses that users and redirects name. A
fetch is a program that asks the network: `fetchWithSafeRedirects` and
`fetchGifBinaryWithSafeRedirects` follow redirects by hand, each hop with a lookup of its own and
with a request that is pinned to what this lookup has found.

Whatever resolvers and servers answer (`Cleared`, `gifFetch_leads`):

* a request goes to one of the addresses that were just found for the host of its URL, where the
  guard has let all of these pass, and to the port 80 or 443;
* the hosts that the caller refuses are neither looked up nor connected to;
* there are no more requests than hops, and of a redirect no body is read.

The `URL` class is a parameter (`UrlClass`).
-/

namespace OneToThree.LinkPreview

open Program

abbrev Text := List Char

/-! ## URLs and requests -/

/-- The parts of a URL, which are ASCII but for its own text. -/
structure Url where
  protocol : String
  hostname : Text
  /-- `Number.parseInt` of the port, if there is one. -/
  port : Option ℕ
  host : Text
  pathname : Text
  search : Text
  href : JsText

structure UrlClass where
  /-- `new URL(value)`. -/
  parse : JsText → Option Url
  /-- `new URL(value, base)`. -/
  resolve : JsText → JsText → Option Url

def Url.isWeb (url : Url) : Bool := url.protocol = "https:" || url.protocol = "http:"

/-- The options of `http.request` or `https.request`. -/
structure Request where
  isHttps : Bool
  hostname : Text
  port : ℕ
  path : Text
  host : Text
  userAgent : String
  servername : Option Text

structure Response where
  statusCode : ℕ
  location : Option JsText
  contentType : Option Text

def Response.isRedirect (res : Response) : Bool := 300 ≤ res.statusCode && res.statusCode < 400

def Response.ok (res : Response) : Bool := 200 ≤ res.statusCode && res.statusCode < 300

/-- The chunks of a body, up to its end, or to an error. -/
structure Body where
  chunks : List (List UInt8)
  error : Option String

/-! ## Programs -/

inductive Question
  /-- `dns.lookup` of all addresses. -/
  | lookup (hostname : Text)
  /-- `signal.aborted`. -/
  | aborted
  /-- A request is made, and its response begins. -/
  | get (request : Request)
  /-- `res.dispose()`. -/
  | dispose
  /-- The body is read. -/
  | read

/-- The answers; errors are told by their messages. -/
def Answer : Question → Type
  | .lookup _ => Except String (List Text)
  | .aborted => Bool
  | .get _ => Except String Response
  | .dispose => Unit
  | .read => Body

abbrev Fetch := Program Question Answer

def ALLOWED_FETCH_PORTS : List ℕ := [80, 443]

def requestPort (url : Url) : ℕ := url.port.getD (if url.protocol = "https:" then 443 else 80)

/-- The request for a URL, at an address. -/
def pinnedRequest (userAgent : String) (url : Url) (address : Text) : Request where
  isHttps := url.protocol = "https:"
  hostname := address
  port := requestPort url
  path := if url.pathname ++ url.search = [] then ['/'] else url.pathname ++ url.search
  host := url.host
  userAgent
  servername := if url.protocol = "https:" then some url.hostname else none

/-- `requestGetPinned` and `requestGetPinnedBinary`. -/
def requestGet (userAgent : String) (url : Url) (pinned : Pinned) :
    Fetch (Except String Response) :=
  ask .aborted fun
    | true => done (.error "AbortError")
    | false =>
      if requestPort url ∉ ALLOWED_FETCH_PORTS then done (.error "SSRF_BLOCKED")
      else ask (.get (pinnedRequest userAgent url pinned.address)) done

def requestGetPinned : Url → Pinned → Fetch (Except String Response) :=
  requestGet "OneToThree-LinkPreview/1.0"

def requestGetPinnedBinary : Url → Pinned → Fetch (Except String Response) :=
  requestGet "OneToThree-GifProxy/1.0"

def readChunk (maxBytes : ℕ) (bytes chunk : List UInt8) : Except String (List UInt8) :=
  if (bytes ++ chunk).length > maxBytes then .error "BODY_TOO_LARGE" else .ok (bytes ++ chunk)

/-- `readBodyLimited` and `readBodyLimitedBuffer`. -/
def readBodyLimited (maxBytes : ℕ) (body : Body) : Except String (List UInt8) := do
  let bytes ← body.chunks.foldlM (readChunk maxBytes) []
  match body.error with
  | some error => .error error
  | none => .ok bytes

/-- The final response of a fetch. -/
structure Fetched where
  ok : Bool
  contentType : Text
  finalUrl : Url

/-- A fetch that follows up to `hops` redirects. The caller's `get` makes a request, and its
    `refuses` tells which hosts it does not go to. -/
def safeRedirects (urls : UrlClass) (get : Url → Pinned → Fetch (Except String Response))
    (refuses : Url → Option String) : ℕ → JsText → Fetch (Except String Fetched)
  | 0, _ => done (.error "TOO_MANY_REDIRECTS")
  | hops + 1, current =>
    match urls.parse current with
    | none => done (.error "INVALID_URL")
    | some url =>
      if !url.isWeb then done (.error "INVALID_URL")
      else match refuses url with
        | some error => done (.error error)
        | none =>
          ask (.lookup url.hostname) fun
            | .error error => done (.error error)
            | .ok results =>
              match assertHostnameSafeForFetch results with
              | .error error => done (.error error.message)
              | .ok pinned =>
                get url pinned >>= fun
                  | .error error => done (.error error)
                  | .ok res =>
                    if res.isRedirect then
                      match res.location.getD [] with
                      | [] => ask .dispose fun _ => done (.error "UPSTREAM_ERROR")
                      | loc =>
                        match urls.resolve loc current with
                        | none => done (.error "Invalid URL")
                        | some next =>
                          ask .dispose fun _ =>
                            safeRedirects urls get refuses hops next.href
                    else done (.ok ⟨res.ok, res.contentType.getD [], url⟩)

/-- At most 8 hops (`MAX_REDIRECTS`). -/
def fetchWithSafeRedirects (urls : UrlClass) : JsText → Fetch (Except String Fetched) :=
  safeRedirects urls requestGetPinned (fun _ => none) 8

/-! ## The GIF proxy -/

def GIF_PROXY_MAX_BYTES : ℕ := 25 * 1024 * 1024

def endsWith (t : Text) (ending : String) : Bool := ending.toList.isSuffixOf t

/-- The white space that `trim` removes, of ASCII; a host name has no other. -/
def trim (t : Text) : Text :=
  ((t.dropWhile Char.isWhitespace).reverse.dropWhile Char.isWhitespace).reverse

def isAllowedGifHost (hostname : Text) : Bool :=
  let lower := toLowerCase (trim hostname)
  lower = "giphy.com".toList || endsWith lower ".giphy.com"
    || lower = "giphyusercontent.com".toList || endsWith lower ".giphyusercontent.com"
    || lower = "tenor.com".toList || endsWith lower ".tenor.com"

def includes (t : Text) (part : String) : Bool := part.toList <:+: t

def isLikelyGifRequest (url : Url) (contentType : Text) : Bool :=
  let pathname := toLowerCase url.pathname
  let type := toLowerCase contentType
  endsWith pathname ".gif" || endsWith pathname ".webp" || includes type "image/gif"
    || includes type "image/webp"

def gifHostError (url : Url) : Option String :=
  if isAllowedGifHost url.hostname then none else some "GIF_HOST_BLOCKED"

/-- At most 6 hops (`MAX_REDIRECTS`), to hosts of the GIF services. -/
def fetchGifBinaryWithSafeRedirects (urls : UrlClass) : JsText → Fetch (Except String Fetched) :=
  safeRedirects urls requestGetPinnedBinary gifHostError 6

/-- A reply: an error, or the bytes that are proxied. -/
inductive GifReply
  | error (status : ℕ) (code : String)
  | gif (bytes : List UInt8)
  deriving DecidableEq

/-- What the route replies to an error. -/
def gifError (error : String) : GifReply :=
  if error = "INVALID_URL" || error = "TOO_MANY_REDIRECTS" then .error 400 "INVALID_URL"
  else if error = "GIF_HOST_BLOCKED" || error = "SSRF_BLOCKED" then .error 403 "GIF_HOST_BLOCKED"
  else if error = "BODY_TOO_LARGE" then .error 413 "GIF_TOO_LARGE"
  else if error = "AbortError" then .error 504 "GIF_FETCH_TIMEOUT"
  else .error 502 "GIF_FETCH_FAILED"

/-- The schema of the query. -/
def validQuery (urls : UrlClass) (url : JsText) : Bool :=
  url.length ≤ 2048 && (urls.parse url).any Url.isWeb

/-- `GET /fetch`, of a user who is signed in. -/
def gifFetch (urls : UrlClass) (url : JsText) : Fetch GifReply :=
  if !validQuery urls url then done (.error 400 "INVALID_URL")
  else
    fetchGifBinaryWithSafeRedirects urls url >>= fun
      | .error error => done (gifError error)
      | .ok res =>
        if !res.ok then done (.error 502 "GIF_FETCH_FAILED")
        else if !isLikelyGifRequest res.finalUrl (trim res.contentType) then
          done (.error 415 "GIF_INVALID_CONTENT_TYPE")
        else
          ask .read fun body =>
            match readBodyLimited GIF_PROXY_MAX_BYTES body with
            | .error error => done (gifError error)
            | .ok bytes => done (.gif bytes)

/-! ## What a fetch knows -/

/-- What the network has told a fetch: what the last host name resolves to, if it was not yet
    connected to, the last response, and the number of the requests. -/
structure Known where
  resolved : Option (Text × List Text)
  last : Option Response
  requests : ℕ

def Known.start : Known := ⟨none, none, 0⟩

def Known.learn (k : Known) : (q : Question) → Answer q → Known
  | .lookup hostname, .ok results => { k with resolved := some (hostname, results) }
  | .lookup _, .error _ => { k with resolved := none }
  | .get _, .ok res => ⟨none, some res, k.requests + 1⟩
  | .get _, .error _ => ⟨none, none, k.requests + 1⟩
  | _, _ => k

/-- A request for a URL may be pinned to an address. -/
structure Clears (refuses : Url → Option String) (hops : ℕ) (k : Known) (url : Url)
    (address : Text) : Prop where
  isWeb : url.isWeb = true
  accepted : refuses url = none
  /-- It is one of the addresses just found, and the guard lets all of these pass. -/
  found : ∃ results, k.resolved = some (url.hostname, results) ∧ address ∈ results ∧
    ∀ a ∈ results, isPrivateOrLoopbackAddress a = false
  external : ∀ a : IpAddress, a.HasText address → a.misspelt = false → a.internal = false
  port : requestPort url ∈ ALLOWED_FETCH_PORTS
  requests : k.requests < hops

/-- What a fetch may ask for: the lookup of a host that is not refused, a request that is cleared,
    and the body of a response that is no redirect. -/
def Cleared (refuses : Url → Option String) (hops : ℕ) (k : Known) : Question → Prop
  | .lookup hostname => ∃ url : Url, url.hostname = hostname ∧ url.isWeb = true ∧ refuses url = none
  | .get req => ∃ userAgent url address, req = pinnedRequest userAgent url address ∧
      Clears refuses hops k url address
  | .read => ∃ res, k.last = some res ∧ res.isRedirect = false
  | .aborted | .dispose => True

/-- What is fetched is the last response, which is no redirect. -/
def Known.Final (k : Known) (fetched : Except String Fetched) : Prop :=
  ∀ f, fetched = .ok f → f.finalUrl.isWeb = true ∧
    ∃ res, k.last = some res ∧ res.isRedirect = false ∧ f.ok = res.ok ∧
      f.contentType = res.contentType.getD []

section
variable {urls : UrlClass} {refuses : Url → Option String} {hops : ℕ} {k : Known}

theorem clears_of_pinned {url : Url} {results : List Text} {pinned : Pinned}
    (hweb : url.isWeb = true) (haccepted : refuses url = none)
    (hpinned : assertHostnameSafeForFetch results = .ok pinned)
    (hresolved : k.resolved = some (url.hostname, results))
    (hport : requestPort url ∈ ALLOWED_FETCH_PORTS) (hrequests : k.requests < hops) :
    Clears refuses hops k url pinned.address :=
  ⟨hweb, haccepted, ⟨results, hresolved, pinned_mem hpinned⟩,
    fun _ ha hspelt => pinned_not_internal hpinned ha hspelt, hport, hrequests⟩

theorem final_error {error : String} : k.Final (.error error) := nofun

/-- Each hop looks its host up, and requests what it has found. -/
theorem safeRedirects_leads (userAgent : String) {n : ℕ} (current : JsText)
    (hn : k.requests + n ≤ hops) :
    (safeRedirects urls (requestGet userAgent) refuses n current).Leads (Cleared refuses hops)
      Known.learn Known.Final k := by
  induction n generalizing k current with
  | zero => exact final_error
  | succ n ih =>
    have hlt : k.requests < hops := Nat.lt_of_lt_of_le (Nat.lt_add_of_pos_right n.succ_pos) hn
    rw [safeRedirects]
    cases urls.parse current with
    | none => exact final_error
    | some url =>
      dsimp only
      split_ifs with hweb
      · exact final_error
      rw [Bool.not_eq_true, Bool.not_eq_false'] at hweb
      cases haccepted : refuses url with
      | some error => exact final_error
      | none =>
        refine leads_ask.2 ⟨⟨url, rfl, hweb, haccepted⟩, fun results => ?_⟩
        cases results with
        | error error => exact final_error
        | ok results =>
          dsimp only
          cases hpinned : assertHostnameSafeForFetch results with
          | error error => exact final_error
          | ok pinned =>
            refine leads_ask.2 ⟨trivial, fun aborted => ?_⟩
            cases aborted with
            | true => exact final_error
            | false =>
              dsimp only
              by_cases hport : requestPort url ∈ ALLOWED_FETCH_PORTS
              · rw [if_neg (not_not_intro hport)]
                refine leads_ask.2 ⟨⟨userAgent, url, pinned.address, rfl,
                  clears_of_pinned hweb haccepted hpinned rfl hport hlt⟩, fun res => ?_⟩
                cases res with
                | error error => exact final_error
                | ok res =>
                  change Leads (Cleared refuses hops) Known.learn Known.Final
                    (if res.isRedirect then _ else _) _
                  split_ifs with hredirect
                  · cases res.location.getD [] with
                    | nil => exact ⟨trivial, fun _ => final_error⟩
                    | cons c loc =>
                      dsimp only
                      cases urls.resolve (c :: loc) current with
                      | none => exact final_error
                      | some next =>
                        refine leads_ask.2 ⟨trivial, fun _ => ih next.href ?_⟩
                        -- The hop has made one request.
                        change k.requests + 1 + n ≤ hops
                        omega
                  · rintro f ⟨⟩
                    exact ⟨hweb, res, rfl, Bool.eq_false_iff.2 hredirect, rfl, rfl⟩
              · rw [if_pos hport]
                exact final_error

/-- The pages of previews: whatever resolvers and servers answer, a fetch asks for nothing that is
    not cleared, and makes no more than 8 requests. -/
theorem fetchWithSafeRedirects_leads (urls : UrlClass) (url : JsText) :
    (fetchWithSafeRedirects urls url).Leads (Cleared (fun _ => none) 8) Known.learn Known.Final
      .start :=
  safeRedirects_leads _ url (Nat.zero_add 8).le

theorem length_of_readChunks {maxBytes : ℕ} {chunks : List (List UInt8)} {start bytes : List UInt8}
    (hstart : start.length ≤ maxBytes) (h : chunks.foldlM (readChunk maxBytes) start = .ok bytes) :
    bytes.length ≤ maxBytes := by
  induction chunks generalizing start with
  | nil =>
    cases h
    exact hstart
  | cons chunk chunks ih =>
    rw [List.foldlM_cons, readChunk] at h
    split_ifs at h with hlong
    · cases h
    · exact ih (Nat.le_of_not_gt hlong) h

theorem length_of_readBodyLimited {maxBytes : ℕ} {body : Body} {bytes : List UInt8}
    (h : readBodyLimited maxBytes body = .ok bytes) : bytes.length ≤ maxBytes := by
  rw [readBodyLimited] at h
  cases hread : body.chunks.foldlM (readChunk maxBytes) [] with
  | error error =>
    rw [hread] at h
    cases h
  | ok read =>
    rw [hread] at h
    have hlength := length_of_readChunks (Nat.zero_le maxBytes) hread
    cases herror : body.error with
    | some error =>
      rw [herror] at h
      cases h
    | none =>
      rw [herror] at h
      cases h
      exact hlength

/-- What the GIF proxy replies: bytes only of a response that succeeded, and no more than 25 MiB. -/
def Known.Proxied (k : Known) (reply : GifReply) : Prop :=
  ∀ bytes, reply = .gif bytes →
    bytes.length ≤ GIF_PROXY_MAX_BYTES ∧ ∃ res, k.last = some res ∧ res.ok = true

/-- The GIF proxy: whatever resolvers and servers answer, it looks up and requests hosts of the GIF
    services only, at addresses that are cleared, with no more than 6 requests, and reads no
    redirect. -/
theorem gifFetch_leads (urls : UrlClass) (url : JsText) :
    (gifFetch urls url).Leads (Cleared gifHostError 6) Known.learn Known.Proxied .start := by
  rw [gifFetch]
  split_ifs
  · exact fun _ h => by cases h
  refine (safeRedirects_leads _ url (Nat.zero_add 6).le).bind fun k fetched hfinal => ?_
  have herror : ∀ (k : Known) error, k.Proxied (gifError error) := by
    intro k error bytes h
    rw [gifError] at h
    split_ifs at h
  cases fetched with
  | error error => exact herror k error
  | ok res =>
    obtain ⟨-, last, hlast, hredirect, hok, -⟩ := hfinal res rfl
    dsimp only
    split_ifs with hres htype
    · exact fun _ h => by cases h
    · exact fun _ h => by cases h
    rw [Bool.not_eq_true, Bool.not_eq_false'] at hres
    refine leads_ask.2 ⟨⟨last, hlast, hredirect⟩, fun body => ?_⟩
    cases hbody : readBodyLimited GIF_PROXY_MAX_BYTES body with
    | error error => exact herror _ error
    | ok bytes =>
      rintro _ ⟨⟩
      exact ⟨length_of_readBodyLimited hbody, last, hlast, hok ▸ hres⟩

end

end OneToThree.LinkPreview
