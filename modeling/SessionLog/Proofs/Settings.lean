/-
  SessionLog/Proofs/Settings.lean
  ===============================
  **No setting depends on what is written for another.**

  Each setting has a path of its own in the file. It is what its reader makes of the value
  that lies there, and the default where nothing lies there or the reader makes nothing of it.
  So two files that agree on the path of a setting give it one value, and a value of a type
  that its reader does not take is as good as none.
-/
import SessionLog.Proofs.Json.Documents
import SessionLog.Proofs.Json.Paths
import SessionLog.Proofs.Text.Utf8
import SessionLog.Settings
import SessionLog.Transcript.Scan

namespace SessionLog

/-- An integer of 64 signed bits. -/
def Json.IsInt64 (value : Json) : Prop :=
  ∃ n, value = .number (.integer n) ∧ Number.minSigned ≤ n ∧ n ≤ Number.maxSigned

theorem Json.isInt64_of_toInt64? {value : Json} {n : Int64}
    (h : value.number?.bind Number.toInt64? = some n) : value.IsInt64 := by
  obtain ⟨number, hnumber, hread⟩ := Option.bind_eq_some_iff.1 h
  cases value with
  | number other =>
    obtain rfl : other = number := Option.some.inj hnumber
    cases other with
    | integer k =>
      rw [Number.toInt64?] at hread
      split at hread
      · rename_i hbounds
        exact ⟨k, rfl, hbounds⟩
      · exact absurd hread (Option.some_ne_none n).symm
    | real x => exact absurd hread (Option.some_ne_none n).symm
  | null | bool _ | string _ | array _ | object _ =>
    exact absurd hnumber (Option.some_ne_none number).symm

namespace Settings

/-! ### The settings one by one -/

inductive Setting where
  | enabled
  | warning
  | critical
  | maxResponse
  | contextLimit
  | tools
  | tracksPerformance
deriving DecidableEq, Repr

namespace Setting

/-- Where a setting is read from. -/
def path : Setting → List String
  | .enabled => ["enabled"]
  | .warning => ["cost_alert", "warning"]
  | .critical => ["cost_alert", "critical"]
  | .maxResponse => ["response_max_length"]
  | .contextLimit => ["context_limit"]
  | .tools => ["tools_to_log"]
  | .tracksPerformance => ["performance_tracking"]

def Value : Setting → Type
  | .enabled => Bool
  | .warning => Binary64
  | .critical => Binary64
  | .maxResponse => Nat
  | .contextLimit => Int64
  | .tools => List String
  | .tracksPerformance => Bool

/-- The JSON values of the type that a setting takes. -/
def Admits : Setting → Json → Prop
  | .enabled, value => ∃ b, value = .bool b
  | .warning, value => ∃ n, value = .number n
  | .critical, value => ∃ n, value = .number n
  | .maxResponse, value => value.IsInt64
  | .contextLimit, value => value.IsInt64
  | .tools, value => ∃ items, value = .array items
  | .tracksPerformance, value => ∃ b, value = .bool b

/-- No path of a setting goes on from that of another. -/
theorem eq_of_path_goesOn {a b : Setting} (h : a.path <+: b.path) : a = b := by
  cases a <;> cases b <;> first | rfl | exact absurd h (by decide)

/-- What a setting is made of a value that lies at its path. -/
def read? : (setting : Setting) → Json → Option setting.Value
  | .enabled, value => value.bool?
  | .warning, value => value.number?.map Number.toReal
  | .critical, value => value.number?.map Number.toReal
  | .maxResponse, value => (value.number?.bind Number.toInt64?).map fun n => n.toInt.toNat
  | .contextLimit, value => value.number?.bind Number.toInt64?
  | .tools, value => value.items?.map (List.filterMap Json.string?)
  | .tracksPerformance, value => value.bool?

theorem admits_of_read? {setting : Setting} {value : Json} {a : setting.Value}
    (h : setting.read? value = some a) : setting.Admits value := by
  cases setting with
  | enabled | tracksPerformance =>
    cases value with
    | bool b => exact ⟨b, rfl⟩
    | null | number _ | string _ | array _ | object _ => exact absurd h (Option.some_ne_none a).symm
  | warning | critical =>
    cases value with
    | number n => exact ⟨n, rfl⟩
    | null | bool _ | string _ | array _ | object _ => exact absurd h (Option.some_ne_none a).symm
  | maxResponse =>
    obtain ⟨n, hn, -⟩ := Option.map_eq_some_iff.1 h
    exact Json.isInt64_of_toInt64? hn
  | contextLimit => exact Json.isInt64_of_toInt64? h
  | tools =>
    cases value with
    | array items => exact ⟨items, rfl⟩
    | null | bool _ | number _ | string _ | object _ => exact absurd h (Option.some_ne_none a).symm

end Setting

open Setting

def get (settings : Settings) : (setting : Setting) → setting.Value
  | .enabled => settings.enabled
  | .warning => settings.costAlert.warning
  | .critical => settings.costAlert.critical
  | .maxResponse => settings.maxResponse
  | .contextLimit => settings.contextLimit
  | .tools => settings.tools
  | .tracksPerformance => settings.tracksPerformance

/-- Settings have nothing besides the seven. -/
theorem ext_get {a b : Settings} (h : ∀ setting, a.get setting = b.get setting) : a = b := by
  obtain ⟨enabled, ⟨warning, critical⟩, maxResponse, contextLimit, tools, tracks⟩ := a
  obtain rfl : enabled = b.enabled := h .enabled
  obtain rfl : warning = b.costAlert.warning := h .warning
  obtain rfl : critical = b.costAlert.critical := h .critical
  obtain rfl : maxResponse = b.maxResponse := h .maxResponse
  obtain rfl : contextLimit = b.contextLimit := h .contextLimit
  obtain rfl : tools = b.tools := h .tools
  obtain rfl : tracks = b.tracksPerformance := h .tracksPerformance
  rfl

/-- A setting is read from what lies at its path, and from nothing else. -/
theorem get_ofObject (object : Json) (setting : Setting) :
    (ofObject object).get setting =
      ((object.at? setting.path).bind setting.read?).getD (default.get setting) := by
  cases setting with
  | enabled | tracksPerformance =>
    rw [path, Json.at?_singleton]
    rfl
  | warning | critical =>
    have hread : ∀ key,
        (object.at? ["cost_alert", key]).bind (fun value => value.number?.map Number.toReal) =
          thresholdUnder key object := by
      intro key
      rw [Json.at?, Option.bind_assoc, thresholdUnder]
      refine Option.bind_congr fun alert _ => ?_
      rw [Json.at?_singleton, realUnder, Option.map_bind]
      rfl
    exact congrArg (Option.getD · _) (hread _).symm
  | maxResponse =>
    have hread : (object.at? ["response_max_length"]).bind (read? .maxResponse) =
        (integerUnder "response_max_length" object).map fun n => n.toInt.toNat := by
      rw [Json.at?_singleton, integerUnder, Option.bind_assoc, Option.map_bind]
      rfl
    rw [path, hread, get, ofObject]
    cases integerUnder "response_max_length" object <;> rfl
  | contextLimit =>
    have hread : (object.at? ["context_limit"]).bind (read? .contextLimit) =
        integerUnder "context_limit" object := by
      rw [Json.at?_singleton, integerUnder, Option.bind_assoc]
      rfl
    exact congrArg (Option.getD · _) hread.symm
  | tools =>
    have hread : (object.at? ["tools_to_log"]).bind (read? .tools) =
        stringsUnder "tools_to_log" object := by
      rw [Json.at?_singleton, stringsUnder, Option.map_bind]
      rfl
    exact congrArg (Option.getD · _) hread.symm

/-- Settings read from what says the same at the path of a setting agree on it. -/
theorem get_ofObject_congr {a b : Json} {setting : Setting}
    (h : a.at? setting.path = b.at? setting.path) :
    (ofObject a).get setting = (ofObject b).get setting := by
  rw [get_ofObject, get_ofObject, h]

/-- A value that is of no use at a path: the setting there does not take its type, or the
    paths of thresholds go on from there and it is no object. -/
inductive Mistyped : List String → Json → Prop
  | setting {setting : Setting} {value : Json} (h : ¬setting.Admits value) :
    Mistyped setting.path value
  | alerts {value : Json} (h : value.members? = none) : Mistyped ["cost_alert"] value

namespace Mistyped

variable {path : List String} {value : Json}

theorem path_ne_nil (h : Mistyped path value) : path ≠ [] := by
  cases h with
  | @setting own _ _ => cases own <;> decide
  | alerts _ => decide

/-- Every setting is read from elsewhere, or from the value or below it and in vain. -/
theorem apart_or_unread (h : Mistyped path value) (setting : Setting) :
    (¬path <+: setting.path ∧ ¬setting.path <+: path) ∨
      ∃ back, setting.path = path ++ back ∧ (value.at? back).bind setting.read? = none := by
  cases h with
  | @setting own _ h =>
    by_cases hown : setting = own
    · subst hown
      refine Or.inr ⟨[], (List.append_nil _).symm, ?_⟩
      rw [Json.at?, Option.bind_some, Option.eq_none_iff_forall_ne_some]
      exact fun a ha => h (admits_of_read? ha)
    · exact Or.inl ⟨fun h => hown (eq_of_path_goesOn h).symm, fun h => hown (eq_of_path_goesOn h)⟩
  | alerts h =>
    have hbelow : ∀ key, value.at? [key] = none := fun key => by
      rw [Json.at?_singleton, Json.get?, h, Option.bind_none]
    cases setting with
    | warning => exact Or.inr ⟨["warning"], rfl, by rw [hbelow, Option.bind_none]⟩
    | critical => exact Or.inr ⟨["critical"], rfl, by rw [hbelow, Option.bind_none]⟩
    | enabled | maxResponse | contextLimit | tools | tracksPerformance =>
      exact Or.inl ⟨by decide, by decide⟩

end Mistyped

/-- A value of the wrong type does what no value would do. -/
theorem ofObject_without {object value : Json} {path : List String}
    (hvalue : object.at? path = some value) (h : Mistyped path value) :
    ofObject (object.without path) = ofObject object := by
  apply ext_get
  intro setting
  rcases h.apart_or_unread setting with ⟨hbehind, hfront⟩ | ⟨back, hpath, hunread⟩
  · exact get_ofObject_congr (Json.at?_without_of_apart hbehind hfront object)
  · rw [get_ofObject, get_ofObject, hpath, Json.at?_append, Json.at?_append,
      Json.at?_without_self h.path_ne_nil, hvalue, Option.bind_some, hunread, Option.bind_none,
      Option.bind_none]

/-- A negative length is no limit: below zero there is no length, and one that is no integer
    of 64 bits is of the wrong type. -/
theorem maxResponse_of_negative {object : Json} {number : Number}
    (hnumber : object.at? ["response_max_length"] = some (.number number))
    (h : number.toReal.negative = true) : (ofObject object).maxResponse = 0 := by
  have hread := get_ofObject object .maxResponse
  rw [path, hnumber] at hread
  refine hread.trans ?_
  cases number with
  | real x => rfl
  | integer n =>
    have hn : n < 0 := of_decide_eq_true h
    change ((Number.toInt64? (.integer n)).map fun n => n.toInt.toNat).getD 0 = 0
    rw [Number.toInt64?]
    split
    · rename_i hbounds
      have hvalue : (Int64.ofInt n).toInt = n :=
        Int64.toInt_ofInt_of_le hbounds.1 (Int.lt_of_le_of_lt hbounds.2 (by decide))
      rw [Option.map_some, Option.getD_some, hvalue]
      exact Int.toNat_of_nonpos (Int.le_of_lt hn)
    · rfl

/-! ### Settings files -/

theorem load_of_parse? {octets : List UInt8} {members : List (String × Json)}
    (h : (Utf8.decode? octets).bind Json.parse? = some (.object members)) :
    load (some octets) = (ofObject (.object members), []) := by
  rw [load, Option.bind_some, h]

/-- Two settings files with a JSON object each. A setting is what its reader makes of the
    value at its path, and its default if that is nothing. So what the files agree on they are
    read alike in, setting by setting. If one lacks no more than a value of the wrong type that
    the other has, they are read alike altogether. A length with a minus sign limits no
    response. -/
theorem settings_independent {octets other : List UInt8}
    {members otherMembers : List (String × Json)}
    (h : (Utf8.decode? octets).bind Json.parse? = some (.object members))
    (hother : (Utf8.decode? other).bind Json.parse? = some (.object otherMembers)) :
    (∀ setting : Setting, (load (some octets)).1.get setting =
      (((Json.object members).at? setting.path).bind setting.read?).getD
        (default.get setting)) ∧
    (∀ setting : Setting,
      (Json.object members).at? setting.path = (Json.object otherMembers).at? setting.path →
        (load (some octets)).1.get setting = (load (some other)).1.get setting) ∧
    (∀ path value, (Json.object members).at? path = some value → Mistyped path value →
      .object otherMembers = (Json.object members).without path →
        load (some octets) = load (some other)) ∧
    (∀ number : Number,
      (Json.object members).at? ["response_max_length"] = some (.number number) →
        number.toReal.negative = true →
          (load (some octets)).1.maxResponse = 0 ∧
            ∀ text, Transcript.capAt (load (some octets)).1.maxResponse text = text) := by
  rw [load_of_parse? h, load_of_parse? hother]
  refine ⟨get_ofObject _, fun setting => get_ofObject_congr,
    fun path value hvalue hmistyped hwithout => ?_, fun number hnumber hnegative => ?_⟩
  · rw [hwithout, ofObject_without hvalue hmistyped]
  · have hmax := maxResponse_of_negative hnumber hnegative
    refine ⟨hmax, fun text => ?_⟩
    rw [hmax, Transcript.capAt, if_pos rfl]

/-- Alerts that are no object, beside a limit and a negative length. -/
def alertsAsText : Json :=
  .object [("context_limit", .number (.integer 1000)), ("cost_alert", .string "off"),
    ("response_max_length", .number (.integer (-5)))]

/-- The limit is taken over from the file, the thresholds are not. -/
theorem settings_independent_alertsAsText :
    let octets := Utf8.encode alertsAsText.render
    let other := Utf8.encode (alertsAsText.without ["cost_alert"]).render
    (load (some octets)).1.get .contextLimit = (1000 : Int64) ∧
      (load (some octets)).1.get .warning = Binary64.zero ∧
      (load (some octets)).1.get .contextLimit = (load (some other)).1.get .contextLimit ∧
      load (some octets) = load (some other) ∧
      (load (some octets)).1.maxResponse = 0 := by
  have hlimit : Json.MemberReadsAs 126 ("context_limit", .number (.integer 1000))
      ("context_limit", .number (.integer 1000)) :=
    ⟨rfl, Json.readsAs_integer (by decide) (by decide) 126⟩
  have hlength : Json.MemberReadsAs 126 ("response_max_length", .number (.integer (-5)))
      ("response_max_length", .number (.integer (-5))) :=
    ⟨rfl, Json.readsAs_integer (by decide) (by decide) 126⟩
  have hoctets : (Utf8.decode? (Utf8.encode alertsAsText.render)).bind Json.parse? =
      some (.object [("context_limit", .number (.integer 1000)), ("cost_alert", .string "off"),
        ("response_max_length", .number (.integer (-5)))]) := by
    have halerts : Json.MemberReadsAs 126 ("cost_alert", .string "off")
        ("cost_alert", .string "off") := ⟨rfl, Json.readsAs_string 126 "off"⟩
    have hreads := Json.readsAs_object (.cons hlimit (.cons halerts (.cons hlength .nil)))
    rw [Utf8.decode?_encode, Option.bind_some]
    exact hreads.compact.parse?
  have hother : (Utf8.decode? (Utf8.encode (alertsAsText.without ["cost_alert"]).render)).bind
      Json.parse? = some (.object [("context_limit", .number (.integer 1000)),
        ("response_max_length", .number (.integer (-5)))]) := by
    rw [Utf8.decode?_encode, Option.bind_some]
    exact (Json.readsAs_object (.cons hlimit (.cons hlength .nil))).compact.parse?
  obtain ⟨htaken, hagree, hmistyped, hnegative⟩ := settings_independent hoctets hother
  exact ⟨htaken .contextLimit, htaken .warning, hagree .contextLimit rfl,
    hmistyped ["cost_alert"] (.string "off") rfl (.alerts rfl) rfl,
    (hnegative (.integer (-5)) rfl rfl).1⟩

end Settings

end SessionLog
