import Growbox.App
import Mathlib.Algebra.Group.Int.Defs

/-!
# `httpserv.cpp`: the routing table and the login

A request goes to the first entry of `req` whose method it has and whose URI its
own begins with.  `serveLogin` sets `logged_in` and starts the timer that clears
it, and nothing else looks at the flag; so the handlers that are not public run
for whoever asks for them (`routes_guarded_iff`).
-/

namespace Growbox

open Decimal EventRun

/-! ## Requests -/

/-- What is read of a FastCGI request: four parameters and the input stream. -/
structure Request where
  method : Option CStr
  uri : Option CStr
  contentLength : Option CStr
  contentType : Option CStr
  input : CStr

def isSpace (c : Char) : Bool := c.toNat == 32 || (decide (9 ≤ c.toNat) && decide (c.toNat ≤ 13))

/-- `strtol(s, NULL, 10)` -/
def strtol (s : CStr) : Int :=
  let digits := fun ds => Int.ofNat ((scanDec ds).getD 0)
  match s.dropWhile isSpace with
  | '-' :: ds => max (-2 ^ 63) (-digits ds)
  | '+' :: ds => min (2 ^ 63 - 1) (digits ds)
  | ds => min (2 ^ 63 - 1) (digits ds)

def maxPostLen : Nat := 2048

/-- The body as a C string.  The length only decides whether it is read;
`data_len` is a `size_t`, so a negative one is too long. -/
def httpGetBody (r : Request) : Option CStr :=
  match r.contentType, r.contentLength with
  | some _, some len =>
    if maxPostLen < ((strtol len) % 2 ^ 64).toNat then none
    else some (r.input.takeWhile fun ch => ch.toNat != 0)
  | _, _ => none

/-- The text from the first occurrence of `needle` on. -/
def strstr (needle : CStr) : CStr → Option CStr
  | [] => if needle.isEmpty then some [] else none
  | c :: s => if needle.isPrefixOf (c :: s) then some (c :: s) else strstr needle s

/-! ## Sign-in -/

structure LoginConf where
  username : CStr
  password : CStr

/-- The byte at `pass_ptr` is overwritten by a terminator, which ends the name. -/
def userSignIn (buf log pass : CStr) : Bool :=
  match strstr "username=".toList buf with
  | none => false
  | some logPtr =>
    match strstr "&pass=".toList logPtr with
    | none => false
    | some passPtr =>
      (logPtr.take (logPtr.length - passPtr.length)).drop 9 == log && passPtr.drop 6 == pass

/-- `logged_in` after `serve_login`. -/
def serveLogin (conf : LoginConf) (r : Request) (loggedIn : Bool) : Bool :=
  match httpGetBody r with
  | none => loggedIn
  | some data => if userSignIn data conf.username conf.password then true else loggedIn

/-! ## The routing table -/

inductive Page where
  | startup | mainmenu | notFound | settings | flc | temperature | cooler | template
  deriving DecidableEq, Repr

inductive CbFunc where
  | serveHtml | serveLogin | serveMainContent | serveCurrSettings
  | serveFlcUpdate | serveFlcCurrTime | serveFlcStartTime | serveFlcStopTime | serveFlcSmooth
  | serveFlcSmoothValue | serveFlcChPower
  | serveCoolersCurr | serveCoolersPower | serveCoolersTime
  | serveSettLan | serveSettWifiapOn | serveSettWifiapOff | serveSettRtc | serveSettReboot
  | serveSettPoweroff | serveSettRestoreDflt
  | serveSetThPeriod | serveGetThData | serveAvailTh | serveGetThDayData
  deriving DecidableEq, Repr

inductive CbArg where
  | null | page (p : Page) | cl (flag : ClFlag) | th (flag : ThFlag)
  deriving DecidableEq, Repr

structure HttpReq where
  method : String
  uri : String
  cb : CbFunc
  cbArg : CbArg
  deriving DecidableEq, Repr

def req : List HttpReq := [
  ⟨"GET", "/rfu", .serveHtml, .page .notFound⟩,
  ⟨"GET", "/template", .serveHtml, .page .template⟩,
  ⟨"GET", "/cncu_welcome.html", .serveHtml, .page .startup⟩,
  ⟨"GET", "/cncu_welcome_err.hmtl", .serveHtml, .page .startup⟩,
  ⟨"POST", "/login", .serveLogin, .null⟩,
  ⟨"GET", "/cncu_mainmenu.html", .serveHtml, .page .startup⟩,
  ⟨"GET", "/content", .serveMainContent, .null⟩,
  ⟨"GET", "/return_mainmenu", .serveHtml, .page .mainmenu⟩,
  ⟨"GET", "/settings", .serveHtml, .page .settings⟩,
  ⟨"GET", "/current_settings", .serveCurrSettings, .null⟩,
  ⟨"GET", "/light_settings", .serveHtml, .page .flc⟩,
  ⟨"GET", "/flc/update", .serveFlcUpdate, .null⟩,
  ⟨"POST", "/flc/current_time", .serveFlcCurrTime, .null⟩,
  ⟨"POST", "/flc/start_time", .serveFlcStartTime, .null⟩,
  ⟨"POST", "/flc/stop_time", .serveFlcStopTime, .null⟩,
  ⟨"POST", "/flc/smooth_control", .serveFlcSmooth, .null⟩,
  ⟨"POST", "/flc/smooth_value", .serveFlcSmoothValue, .null⟩,
  ⟨"POST", "/flc/ch_power", .serveFlcChPower, .null⟩,
  ⟨"GET", "/water_status", .serveHtml, .page .notFound⟩,
  ⟨"GET", "/climate_status", .serveHtml, .page .temperature⟩,
  ⟨"GET", "/coolers_status", .serveHtml, .page .cooler⟩,
  ⟨"GET", "/coolers/curr_state", .serveCoolersCurr, .null⟩,
  ⟨"POST", "/coolers/power", .serveCoolersPower, .null⟩,
  ⟨"POST", "/coolers/start_in_time", .serveCoolersTime, .cl .startIn⟩,
  ⟨"POST", "/coolers/stop_in_time", .serveCoolersTime, .cl .stopIn⟩,
  ⟨"POST", "/coolers/wp_in_time", .serveCoolersTime, .cl .wpIn⟩,
  ⟨"POST", "/coolers/start_out_time", .serveCoolersTime, .cl .startOut⟩,
  ⟨"POST", "/coolers/stop_out_time", .serveCoolersTime, .cl .stopOut⟩,
  ⟨"POST", "/coolers/wp_out_time", .serveCoolersTime, .cl .wpOut⟩,
  ⟨"POST", "/settings/lan", .serveSettLan, .null⟩,
  ⟨"POST", "/settings/wifi_ap_state?on", .serveSettWifiapOn, .null⟩,
  ⟨"POST", "/settings/wifi_ap_state?off", .serveSettWifiapOff, .null⟩,
  ⟨"POST", "/settings/rtc", .serveSettRtc, .null⟩,
  ⟨"POST", "/settings/cpu/reboot", .serveSettReboot, .null⟩,
  ⟨"POST", "/settings/cpu/poweroff", .serveSettPoweroff, .null⟩,
  ⟨"POST", "/settings/cpu/restore_settings", .serveSettRestoreDflt, .null⟩,
  ⟨"POST", "/climate/set_temp_hum_period", .serveSetThPeriod, .null⟩,
  ⟨"GET", "/climate/latest_temp_hum", .serveGetThData, .th .latest⟩,
  ⟨"GET", "/climate/avail_dates", .serveAvailTh, .null⟩,
  ⟨"POST", "/climate/day_temp_hum", .serveGetThDayData, .null⟩,
  ⟨"GET", "/climate/week_temp_hum", .serveGetThData, .th .week⟩,
  ⟨"GET", "/climate/month_temp_hum", .serveGetThData, .th .month⟩]

/-- `!strcmp(req_meth, method) && !strncmp(req_uri, uri, strlen(uri))` -/
def HttpReq.fits (e : HttpReq) (meth uri : CStr) : Bool :=
  meth == e.method.toList && e.uri.toList.isPrefixOf uri

/-- What becomes of a request. -/
inductive Served where
  | nothing
  | startupPage
  | handler (e : HttpReq)
  | notFoundPage
  deriving DecidableEq, Repr

/-- The choice `httpserv_serve` makes. -/
def dispatch (r : Request) : Served :=
  match r.method, r.uri with
  | some meth, some uri =>
    if meth == "GET".toList && uri == "/".toList then .startupPage
    else
      match req.find? fun e => e.fits meth uri with
      | some e => .handler e
      | none => if (strstr ".html".toList uri).isSome then .notFoundPage else .nothing
  | _, _ => .nothing

/-- `httpserv_serve`: of the handlers only the login changes `logged_in`. -/
def httpservServe (conf : LoginConf) (r : Request) (loggedIn : Bool) : Served × Bool :=
  match dispatch r with
  | .handler e => (.handler e, if e.cb = .serveLogin then serveLogin conf r loggedIn else loggedIn)
  | s => (s, loggedIn)

/-! ## Runs of requests and timer expiries -/

inductive HttpEv where
  | request (r : Request)
  | expired

/-- `login_timer_handler` clears the flag. -/
def httpStep (conf : LoginConf) (loggedIn : Bool) : HttpEv → Bool
  | .request r => (httpservServe conf r loggedIn).2
  | .expired => false

/-- The login, and the pages anyone may see. -/
def HttpReq.isPublic (e : HttpReq) : Bool :=
  e.cb == .serveLogin ||
    (e.cb == .serveHtml && [.page .startup, .page .notFound, .page .template].contains e.cbArg)

/-- Only those who are logged in reach a handler that is not public. -/
def Guarded (conf : LoginConf) (loggedIn : Bool) (ev : HttpEv) : Prop :=
  ∀ r, ev = .request r → ∀ e, (httpservServe conf r loggedIn).1 = .handler e →
    e.isPublic = false → loggedIn = true

/-- The request is answered by the login handler, which accepts it. -/
def SignsIn (conf : LoginConf) (r : Request) : Prop :=
  ∃ e, dispatch r = .handler e ∧ e.cb = .serveLogin ∧
    ∃ data, httpGetBody r = some data ∧ userSignIn data conf.username conf.password = true

/-- Someone has signed in, and the timer has not expired since. -/
def LiveLogin (conf : LoginConf) (past : List HttpEv) : Prop :=
  ∃ pre r post, past = pre ++ .request r :: post ∧ SignsIn conf r ∧ HttpEv.expired ∉ post

/-- The request has the method and the beginning of the URI of an entry that is not public. -/
def AsksProtected (r : Request) : Prop :=
  ∃ e ∈ req, e.isPublic = false ∧ ∃ meth uri, r.method = some meth ∧ r.uri = some uri ∧
    e.fits meth uri = true

/-! ## First match -/

/-- When no element outside `q` can fit together with one inside, the first
match is in `q` as soon as some match is. -/
theorem find?_in_iff {α : Type} (l : List α) (fits q : α → Bool)
    (hsep : ∀ a ∈ l, ∀ b ∈ l, q a = true → q b = false → fits a = true → fits b = true → False) :
    (∃ a, l.find? fits = some a ∧ q a = true) ↔ ∃ a ∈ l, q a = true ∧ fits a = true := by
  constructor
  · rintro ⟨a, hf, hq⟩
    exact ⟨a, List.mem_of_find?_eq_some hf, hq, List.find?_some hf⟩
  · rintro ⟨a, ha, hq, hfit⟩
    cases hf : l.find? fits with
    | none => exact absurd hfit (List.find?_eq_none.mp hf a ha)
    | some b =>
      refine ⟨b, rfl, ?_⟩
      cases hqb : q b with
      | true => rfl
      | false =>
        exact (hsep a ha b (List.mem_of_find?_eq_some hf) hq hqb hfit (List.find?_some hf)).elim

/-- No URI of a public entry begins with that of an entry of the same method
that is not public, or the other way round. -/
theorem req_public_apart :
    (req.all fun a => req.all fun b =>
      a.isPublic || !b.isPublic || a.method != b.method ||
        !(a.uri.toList.isPrefixOf b.uri.toList || b.uri.toList.isPrefixOf a.uri.toList)) = true := by
  decide +kernel

theorem fits_apart {a b : HttpReq} (ha : a ∈ req) (hb : b ∈ req) (hpa : a.isPublic = false)
    (hpb : b.isPublic = true) {meth uri : CStr} (hfa : a.fits meth uri = true)
    (hfb : b.fits meth uri = true) : False := by
  simp only [HttpReq.fits, Bool.and_eq_true, beq_iff_eq, List.isPrefixOf_iff_prefix] at hfa hfb
  have hm : a.method = b.method := String.toList_inj.mp (hfa.1.symm.trans hfb.1)
  have h := List.all_eq_true.mp (List.all_eq_true.mp req_public_apart a ha) b hb
  simp only [hpa, hpb, hm, Bool.not_true, Bool.false_or, bne_self_eq_false, Bool.not_eq_true',
    Bool.or_eq_false_iff] at h
  rcases List.prefix_or_prefix_of_prefix hfa.2 hfb.2 with hp | hp
  · rw [List.isPrefixOf_iff_prefix.mpr hp] at h
    cases h.1
  · rw [List.isPrefixOf_iff_prefix.mpr hp] at h
    cases h.2

theorem dispatch_root {uri : CStr} (huri : uri = "/".toList) (e : HttpReq) (he : e ∈ req)
    (meth : CStr) : e.fits meth uri = false := by
  subst huri
  have h : (req.all fun e => !e.uri.toList.isPrefixOf "/".toList) = true := by decide +kernel
  have := List.all_eq_true.mp h e he
  rw [Bool.not_eq_true'] at this
  rw [HttpReq.fits, this, Bool.and_false]

/-- A request reaches a handler that is not public exactly when it asks for one. -/
theorem dispatch_protected_iff (r : Request) :
    (∃ e, dispatch r = .handler e ∧ e.isPublic = false) ↔ AsksProtected r := by
  unfold AsksProtected dispatch
  cases hm : r.method with
  | none => simp
  | some meth =>
    cases hu : r.uri with
    | none => simp
    | some uri =>
      have hfirst := find?_in_iff req (fun e => e.fits meth uri) (fun e => !e.isPublic)
        fun a ha b hb hpa hpb hfa hfb =>
          fits_apart ha hb (by simpa using hpa) (by simpa using hpb) hfa hfb
      simp only [Bool.not_eq_true'] at hfirst
      simp only [Option.some.injEq, exists_eq_left', exists_and_left]
      split
      · next hroot =>
        simp only [Bool.and_eq_true, beq_iff_eq] at hroot
        simp only [reduceCtorEq, false_and, exists_false, false_iff]
        rintro ⟨e, he, -, hf⟩
        rw [dispatch_root hroot.2 e he] at hf
        cases hf
      · rw [← hfirst]
        cases req.find? fun e => e.fits meth uri with
        | some e => simp
        | none =>
          simp only [reduceCtorEq, false_and, exists_false, iff_false]
          rintro ⟨e, he, -⟩
          split at he <;> cases he

/-! ## The flag and the past -/

theorem serveLogin_eq_true_iff (conf : LoginConf) (r : Request) (loggedIn : Bool) :
    serveLogin conf r loggedIn = true ↔
      (∃ data, httpGetBody r = some data ∧ userSignIn data conf.username conf.password = true) ∨
        loggedIn = true := by
  unfold serveLogin
  cases httpGetBody r with
  | none => simp
  | some data => cases hs : userSignIn data conf.username conf.password <;> simp [hs]

/-- A request sets the flag by signing in, or finds it set. -/
theorem httpStep_request_iff (conf : LoginConf) (r : Request) (loggedIn : Bool) :
    httpStep conf loggedIn (.request r) = true ↔ SignsIn conf r ∨ loggedIn = true := by
  show (httpservServe conf r loggedIn).2 = true ↔ _
  unfold httpservServe SignsIn
  cases dispatch r with
  | handler e =>
    by_cases he : e.cb = .serveLogin
    · simp [he, serveLogin_eq_true_iff]
    · simp [he]
  | nothing => simp
  | startupPage => simp
  | notFoundPage => simp

/-- The flag after some events: somebody signed in and the timer has not expired
since, or it was set and the timer has not expired at all. -/
theorem loggedIn_after_iff (conf : LoginConf) (past : List HttpEv) (loggedIn : Bool) :
    past.foldl (httpStep conf) loggedIn = true ↔
      LiveLogin conf past ∨ (loggedIn = true ∧ HttpEv.expired ∉ past) := by
  induction past generalizing loggedIn with
  | nil =>
    have : ¬ LiveLogin conf [] := by
      rintro ⟨pre, r, post, h, -⟩
      cases pre <;> cases h
    simp [this]
  | cons ev past ih =>
    -- a live login is the first event, or lies among the others
    have hcons : LiveLogin conf (ev :: past) ↔
        (∃ r, ev = .request r ∧ SignsIn conf r ∧ HttpEv.expired ∉ past) ∨ LiveLogin conf past := by
      constructor
      · rintro ⟨pre, r, post, h, hs, hpost⟩
        cases pre with
        | nil =>
          obtain ⟨rfl, rfl⟩ := List.cons_eq_cons.mp h
          exact .inl ⟨r, rfl, hs, hpost⟩
        | cons _ pre =>
          obtain ⟨-, rfl⟩ := List.cons_eq_cons.mp h
          exact .inr ⟨pre, r, post, rfl, hs, hpost⟩
      · rintro (⟨r, rfl, hs, hpast⟩ | ⟨pre, r, post, rfl, hs, hpost⟩)
        · exact ⟨[], r, past, rfl, hs, hpast⟩
        · exact ⟨ev :: pre, r, post, rfl, hs, hpost⟩
    rw [List.foldl_cons, ih, hcons]
    cases ev with
    | expired => simp [httpStep]
    | request r =>
      rw [httpStep_request_iff]
      simp only [HttpEv.request.injEq, exists_eq_left', List.mem_cons, reduceCtorEq, false_or]
      grind

theorem loggedIn_iff_live (conf : LoginConf) (past : List HttpEv) :
    past.foldl (httpStep conf) false = true ↔ LiveLogin conf past := by
  rw [loggedIn_after_iff]
  simp

theorem guarded_iff (conf : LoginConf) (loggedIn : Bool) (ev : HttpEv) :
    Guarded conf loggedIn ev ↔ ∀ r, ev = .request r → AsksProtected r → loggedIn = true := by
  refine forall_congr' fun r => imp_congr_right fun _ => ?_
  rw [← dispatch_protected_iff]
  have hserved : ∀ e, (httpservServe conf r loggedIn).1 = .handler e ↔ dispatch r = .handler e := by
    intro e
    unfold httpservServe
    cases dispatch r <;> simp
  constructor
  · rintro h ⟨e, he, hp⟩
    exact h e ((hserved e).mpr he) hp
  · intro h e he hp
    exact h ⟨e, (hserved e).mp he, hp⟩

/-- **The routes are guarded exactly when nobody tries them**: along a run that
begins logged out, handlers that are not public run only for those logged in if
and only if no one asks for them without a live login. -/
theorem routes_guarded_iff (conf : LoginConf) (es : List HttpEv) :
    Along (total (httpStep conf)) (Guarded conf) false es ↔
      ∀ pre r post, es = pre ++ .request r :: post → ¬ LiveLogin conf pre → ¬ AsksProtected r := by
  rw [along_total_iff]
  constructor
  · intro h pre r post he hlive hask
    have hg := (guarded_iff conf _ _).mp (h pre _ post he) r rfl hask
    exact hlive ((loggedIn_iff_live conf pre).mp hg)
  · intro h pre ev post he
    rw [guarded_iff]
    rintro r rfl hask
    by_cases hlive : LiveLogin conf pre
    · exact (loggedIn_iff_live conf pre).mpr hlive
    · exact absurd hask (h pre r post he hlive)

/-- Anyone can reboot the server. -/
theorem reboot_without_login :
    ¬ Along (total (httpStep ⟨"admin".toList, "admin".toList⟩))
      (Guarded ⟨"admin".toList, "admin".toList⟩) false
      [.request ⟨some "POST".toList, some "/settings/cpu/reboot".toList, none, none, []⟩] := by
  intro h
  have := h.1 _ rfl ⟨"POST", "/settings/cpu/reboot", .serveSettReboot, .null⟩ rfl rfl
  cases this

end Growbox
