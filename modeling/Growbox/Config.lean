import Growbox.AppTh
import Growbox.SignIn

/-!
# Reading `gbweb.conf`

`app_read_config` clears `app_data.conf` and then opens the file; when that fails it
returns with everything cleared, and the caller does not look at the result.  A
cleared user name and a cleared password are what `username=&pass=` carries, so
`login_after_reads_iff` asks for a last read that succeeded.
-/

namespace Growbox

/-! ## `config.cpp` -/

/-- A setting as libconfig has parsed it. -/
inductive ConfVal where
  | int (n : Int32)
  | bool (b : Bool)
  | string (s : CStr)
  deriving DecidableEq, Repr

/-- The settings of a file that could be read, by name. -/
abbrev Cfg := String → Option ConfVal

/-- `strcat` to what `dest` holds. -/
def confStr (cfg : Cfg) (name : String) (dest dflt : CStr) : CStr :=
  match cfg name with
  | some (.string str) => dest ++ str
  | _ => dest ++ dflt

/-- `config_lookup_int` -/
def lookupInt (cfg : Cfg) (name : String) : Option Int32 :=
  match cfg name with
  | some (.int n) => some n
  | _ => none

/-- `config_lookup_bool` -/
def lookupBool (cfg : Cfg) (name : String) : Option Bool :=
  match cfg name with
  | some (.bool b) => some b
  | _ => none

def confInt (cfg : Cfg) (name : String) (dflt : Int32) : Int32 := (lookupInt cfg name).getD dflt

def confBool (cfg : Cfg) (name : String) (dflt : Bool) : Bool := (lookupBool cfg name).getD dflt

/-! ## `app_config_t` -/

/-- The ten pages, each a path below the working directory. -/
structure PagePaths where
  startup : CStr
  loginErr : CStr
  mainmenu : CStr
  notFound : CStr
  template : CStr
  settings : CStr
  flc : CStr
  water : CStr
  temperature : CStr
  cooler : CStr
  deriving DecidableEq, Repr

structure FullConfig where
  testMode : Bool
  logLevel : Int32
  logMaxSize : UInt64
  mydbMaxSize : UInt64
  lanIfaceName : CStr
  lanConnName : CStr
  pages : PagePaths
  remoteReboot : Bool
  remotePoweroff : Bool
  clPollPeriod : Int32
  username : CStr
  password : CStr
  loginTimeout : Int32
  wifiApScriptPath : CStr
  flcTty : CStr
  i2cPath : CStr
  cpuTempPath : CStr
  thPollPeriod : UInt64
  deriving DecidableEq, Repr

namespace FullConfig

/-- After `memset(&app_data.conf, 0, …)`. -/
def zero : FullConfig where
  testMode := false
  logLevel := 0
  logMaxSize := 0
  mydbMaxSize := 0
  lanIfaceName := []
  lanConnName := []
  pages := ⟨[], [], [], [], [], [], [], [], [], []⟩
  remoteReboot := false
  remotePoweroff := false
  clPollPeriod := 0
  username := []
  password := []
  loginTimeout := 0
  wifiApScriptPath := []
  flcTty := []
  i2cPath := []
  cpuTempPath := []
  thPollPeriod := 0

/-- What the two workers read of it. -/
def appConfig (conf : FullConfig) : AppConfig :=
  ⟨conf.testMode, conf.clPollPeriod, conf.thPollPeriod⟩

/-- What the login compares with. -/
def login (conf : FullConfig) : LoginConf := ⟨conf.username, conf.password⟩

/-- The bytes of a text in UTF-8. -/
def utf8Length : CStr → Nat
  | [] => 0
  | c :: s => c.utf8Size + utf8Length s

/-- The text fields with their sizes. -/
def texts (conf : FullConfig) : List (CStr × Nat) :=
  let p := conf.pages
  [(conf.lanIfaceName, 16), (conf.lanConnName, 128), (p.startup, 256), (p.loginErr, 256),
    (p.mainmenu, 256), (p.notFound, 256), (p.template, 256), (p.settings, 256), (p.flc, 256),
    (p.water, 256), (p.temperature, 256), (p.cooler, 256), (conf.username, 64), (conf.password, 64),
    (conf.wifiApScriptPath, 256), (conf.flcTty, 64), (conf.i2cPath, 64), (conf.cpuTempPath, 256)]

/-- Every text, in UTF-8 and with its terminator, fits its field. -/
def Fits (conf : FullConfig) : Prop := ∀ t ∈ conf.texts, utf8Length t.1 + 1 ≤ t.2

instance (conf : FullConfig) : Decidable conf.Fits :=
  inferInstanceAs (Decidable (∀ t ∈ conf.texts, utf8Length t.1 + 1 ≤ t.2))

end FullConfig

/-- `init_config_data` -/
def initConfigData (cwd : CStr) : FullConfig :=
  { FullConfig.zero with pages := ⟨cwd, cwd, cwd, cwd, cwd, cwd, cwd, cwd, cwd, cwd⟩ }

/-- `log_level` when the file has none: `MSG_VERBOSE`. -/
def dfltLogLevel : Int32 := 2

/-- `DFL_LOG_MAX_SIZE`, in megabytes, for the log and the database both. -/
def dflLogMaxSize : Int32 := 256

/-- `DFLT_LOGIN_TMOUT` -/
def dfltLoginTmout : Int32 := 60

/-- The rest of `app_read_config`, on what `init_config_data` has left. -/
def readSettings (cfg : Cfg) (conf : FullConfig) : FullConfig where
  testMode := confBool cfg "test_mode" false
  logLevel := confInt cfg "log_level" dfltLogLevel
  logMaxSize := (confInt cfg "log_max_size" dflLogMaxSize).toInt64.toUInt64 * 1024 * 1024
  mydbMaxSize := (confInt cfg "mydb_max_size" dflLogMaxSize).toInt64.toUInt64 * 1024 * 1024
  loginTimeout := confInt cfg "login_timeout" dfltLoginTmout
  thPollPeriod := (confInt cfg "TH_poll_period" 0).toInt64.toUInt64 * 60
  clPollPeriod := confInt cfg "cl_poll_period" 60
  lanIfaceName := confStr cfg "lan_iface_name" conf.lanIfaceName "enp0s3".toList
  lanConnName := confStr cfg "lan_connection_name" conf.lanConnName "Проводное соединение 1".toList
  wifiApScriptPath :=
    confStr cfg "wifi_ap_script_path" conf.wifiApScriptPath "/opt/growbox/start_wifi_ap.sh".toList
  pages :=
    { startup := confStr cfg "startup_page" conf.pages.startup []
      mainmenu := confStr cfg "mainmenu_page" conf.pages.mainmenu []
      notFound := confStr cfg "page_404" conf.pages.notFound []
      template := confStr cfg "template_page" conf.pages.template []
      settings := confStr cfg "settings_page" conf.pages.settings []
      flc := confStr cfg "flc_page" conf.pages.flc []
      water := confStr cfg "water_page" conf.pages.water []
      temperature := confStr cfg "temperature_page" conf.pages.temperature []
      cooler := confStr cfg "cooler_page" conf.pages.cooler []
      loginErr := confStr cfg "login_err_page" conf.pages.loginErr [] }
  username := confStr cfg "username" conf.username []
  password := confStr cfg "password" conf.password []
  flcTty := confStr cfg "flc_tty" conf.flcTty "/dev/ttyS4".toList
  i2cPath := confStr cfg "i2c_path" conf.i2cPath "/dev/i2c-0".toList
  cpuTempPath := confStr cfg "cpu_temp_path" conf.cpuTempPath "/sys/class/thermal/thermal_zone0/temp".toList
  remoteReboot := confBool cfg "remote_reboot_enabled" false
  remotePoweroff := confBool cfg "remote_poweroff_enabled" false

/-- What `conf_init` finds: no file it can read, or one whose texts fit their fields. -/
inductive ConfRead (cwd : CStr) where
  | failed
  | ok (cfg : Cfg) (fits : (readSettings cfg (initConfigData cwd)).Fits)

/-- `app_read_config`: `app_data.conf` after it.  Nothing of what was there is left. -/
def ConfRead.conf {cwd : CStr} : ConfRead cwd → FullConfig
  | .failed => initConfigData cwd
  | .ok cfg _ => readSettings cfg (initConfigData cwd)

/-- The configuration a successful read gives. -/
def ConfRead.good {cwd : CStr} : ConfRead cwd → Option FullConfig
  | .failed => none
  | .ok cfg fits => some (ConfRead.ok cfg fits).conf

def ConfRead.succeeded {cwd : CStr} : ConfRead cwd → Bool
  | .failed => false
  | .ok _ _ => true

/-! ## Histories of reads -/

section
variable {cwd : CStr}

/-- `app_data.conf` after the calls, from the zeroed process on. -/
def confAfterReads (hist : List (ConfRead cwd)) : FullConfig :=
  hist.foldl (fun _ r => r.conf) .zero

/-- The last configuration that was read successfully. -/
def lastGood (hist : List (ConfRead cwd)) : Option FullConfig :=
  (hist.filterMap ConfRead.good).getLast?

/-- The body has a user name and a password in the form of the login page. -/
def CarriesLogin (username password body : CStr) : Prop :=
  ∃ before, body = before ++ "username=".toList ++ username ++ "&pass=".toList ++ password

/-- Whoever is let in carries the name and password of the last good configuration. -/
def LoginGuarded (hist : List (ConfRead cwd)) : Prop :=
  let conf := confAfterReads hist
  ∀ body, userSignIn body conf.username conf.password = true →
    ∃ good, lastGood hist = some good ∧ CarriesLogin good.username good.password body

theorem confAfterReads_snoc (hist : List (ConfRead cwd)) (r : ConfRead cwd) :
    confAfterReads (hist ++ [r]) = r.conf := by
  unfold confAfterReads
  rw [List.foldl_append]
  rfl

theorem lastGood_snoc_ok (hist : List (ConfRead cwd)) {r : ConfRead cwd}
    (h : r.succeeded = true) : lastGood (hist ++ [r]) = some r.conf := by
  cases r with
  | failed => cases h
  | ok cfg fits =>
    unfold lastGood
    rw [List.filterMap_append]
    exact List.getLast?_concat

/-! ## What the sign-in accepts -/

theorem append_pieces (a b c d e : CStr) : a ++ (b ++ c ++ (d ++ e)) = a ++ b ++ c ++ d ++ e := by
  simp only [List.append_assoc]

/-- What is accepted carries the name and the password it is compared with. -/
theorem userSignIn_carries {body username password : CStr}
    (h : userSignIn body username password = true) : CarriesLogin username password body := by
  obtain ⟨-, before, hbody, -⟩ := (userSignIn_iff body username password).mp h
  exact ⟨before, hbody.trans (append_pieces before "username=".toList username "&pass=".toList password)⟩

/-- The body that carries an empty name and an empty password. -/
def emptyLogin : CStr := "username=&pass=".toList

theorem carries_emptyLogin {username password : CStr} (h : CarriesLogin username password emptyLogin) :
    username = [] ∧ password = [] := by
  obtain ⟨before, h⟩ := h
  have hlen := congrArg List.length h
  simp only [List.length_append] at hlen
  have h15 : emptyLogin.length = 15 := rfl
  have h9 : "username=".toList.length = 9 := rfl
  have h6 : "&pass=".toList.length = 6 := rfl
  exact ⟨List.length_eq_zero_iff.mp (by omega), List.length_eq_zero_iff.mp (by omega)⟩

/-- With nothing in `app_data.conf` the login is guarded only by a good configuration that has
nothing either. -/
theorem loginGuarded_cleared_iff {hist : List (ConfRead cwd)}
    (hu : (confAfterReads hist).username = []) (hp : (confAfterReads hist).password = []) :
    LoginGuarded hist ↔
      ∃ good, lastGood hist = some good ∧ good.username = [] ∧ good.password = [] := by
  simp only [LoginGuarded, hu, hp]
  constructor
  · intro h
    obtain ⟨good, hgood, hc⟩ := h emptyLogin rfl
    exact ⟨good, hgood, carries_emptyLogin hc⟩
  · rintro ⟨good, hgood, hgu, hgp⟩ body hbody
    refine ⟨good, hgood, ?_⟩
    rw [hgu, hgp]
    exact userSignIn_carries hbody

/-- **The login stays guarded exactly while the last read succeeded**, or the last good
configuration has no name and no password; and a read that fails leaves `app_data.conf` as
it was exactly when it was cleared already. -/
theorem login_after_reads_iff (hist : List (ConfRead cwd)) :
    (LoginGuarded hist ↔
      (∃ r, hist.getLast? = some r ∧ r.succeeded = true) ∨
        ∃ good, lastGood hist = some good ∧ good.username = [] ∧ good.password = []) ∧
    (confAfterReads (hist ++ [.failed]) = confAfterReads hist ↔
      confAfterReads hist = initConfigData cwd) := by
  constructor
  · rcases List.eq_nil_or_concat hist with rfl | ⟨past, r, rfl⟩
    · rw [loginGuarded_cleared_iff rfl rfl]
      simp
    · rw [List.concat_eq_append, List.getLast?_concat]
      simp only [Option.some.injEq, exists_eq_left']
      cases hr : r.succeeded with
      | true =>
        refine iff_of_true (fun body hbody => ?_) (.inl rfl)
        rw [confAfterReads_snoc] at hbody
        exact ⟨r.conf, lastGood_snoc_ok past hr, userSignIn_carries hbody⟩
      | false =>
        obtain rfl : r = .failed := by
          cases r with
          | failed => rfl
          | ok cfg fits => cases hr
        have hconf : confAfterReads (past ++ [.failed]) = initConfigData cwd :=
          confAfterReads_snoc past .failed
        rw [loginGuarded_cleared_iff (by rw [hconf]; rfl) (by rw [hconf]; rfl)]
        simp
  · rw [confAfterReads_snoc]
    exact eq_comm

/-- The three keys of the file that the workers depend on. -/
def ConfRead.workerKeys : ConfRead cwd → Option ConfFile
  | .failed => none
  | .ok cfg _ => some
    ⟨lookupBool cfg "test_mode", lookupInt cfg "TH_poll_period", lookupInt cfg "cl_poll_period"⟩

/-- The part of the configuration the workers read is the one `appReadConfig` gives them. -/
theorem appConfig_conf (r : ConfRead cwd) : r.conf.appConfig = appReadConfig r.workerKeys := by
  cases r <;> rfl

end

/-- `username = "admin"; password = "secret";` -/
def adminCfg : Cfg
  | "username" => some (.string "admin".toList)
  | "password" => some (.string "secret".toList)
  | _ => none

def adminRead : ConfRead "/opt/growbox".toList := .ok adminCfg (by decide)

/-- After one good read and one that failed, an empty name and an empty password are let in,
and the other settings are gone too. -/
theorem failed_reload_opens_login :
    ¬ LoginGuarded [adminRead, .failed] ∧
      confAfterReads [adminRead, .failed] ≠ confAfterReads [adminRead] := by
  constructor
  · intro h
    obtain ⟨good, hgood, hc⟩ := h emptyLogin rfl
    obtain rfl : adminRead.conf = good := Option.some.inj hgood
    exact absurd (carries_emptyLogin hc).1 (by decide)
  · intro h
    exact absurd (congrArg FullConfig.username h) (by decide)

end Growbox
