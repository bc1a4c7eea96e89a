import SolidScript.Command.Arguments

/-!
# Options of a command line

Every option that a command line gives has a value that the rule of the option accepts (`scan_accepted`), at every step
of the scan. So an option that chooses a unit system or a theme is never passed over: it is read, or the command line is
refused (`ofArguments_overlay_iff`).
-/

namespace SolidScript.Command

namespace Scanned

/-- Every option that was met has a rule with its name that accepts its value. -/
def Accepted (rules : List OptionRule) (s : Scanned) : Prop :=
  ∀ o ∈ s.options, ∃ rule ∈ rules, rule.name = o.1 ∧ rule.accepts o.2 = true

theorem accepted_start (rules : List OptionRule) : Scanned.start.Accepted rules := by
  intro o ho
  cases ho

end Scanned

/-- What holds of a result if it is a success. -/
def Ensures {α : Type} (P : α → Prop) (result : Except Stop α) : Prop := ∀ a, result = .ok a → P a

section Results

variable {α β : Type} {P : α → Prop} {Q : β → Prop} {result : Except Stop α}

theorem ensures_error (P : α → Prop) (stop : Stop) : Ensures P (.error stop) := nofun

theorem ensures_ok {a : α} (h : P a) : Ensures P (.ok a) := by
  intro b hb
  cases hb
  exact h

/-- A success in two steps is a success of each. -/
theorem bind_eq_ok {f : α → Except Stop β} {b : β} (h : (result >>= f) = .ok b) :
    ∃ a, result = .ok a ∧ f a = .ok b := by
  cases result with
  | error stop => cases h
  | ok a => exact ⟨a, rfl, h⟩

theorem Ensures.bind {f : α → Except Stop β} (h : Ensures P result) (hf : ∀ a, P a → Ensures Q (f a)) :
    Ensures Q (result >>= f) := by
  cases result with
  | error stop => exact ensures_error Q stop
  | ok a => exact hf a (h a rfl)

theorem Ensures.map {f : α → β} (h : Ensures P result) (hf : ∀ a, P a → Q (f a)) : Ensures Q (result.map f) := by
  cases result with
  | error stop => exact ensures_error Q stop
  | ok a => exact ensures_ok (hf a (h a rfl))

end Results

/-! ## Scanning -/

section Scanning

variable {rules : List OptionRule} {operands : OperandRule} {rule : OptionRule} {s : Scanned}

theorem option_accepted (value : String) (hrule : rule ∈ rules) (hs : s.Accepted rules) :
    Ensures (Scanned.Accepted rules) (s.option rule value) := by
  rw [Scanned.option]
  cases haccepts : rule.accepts value with
  | false =>
    rw [Bool.not_false, Bool.or_true, if_pos rfl]
    exact ensures_error _ _
  | true =>
    split
    · exact ensures_error _ _
    · refine ensures_ok fun o ho => ?_
      rcases List.mem_append.1 ho with ho | ho
      · exact hs o ho
      · obtain rfl := List.mem_singleton.1 ho
        exact ⟨rule, hrule, rfl, haccepts⟩

theorem operand_accepted (value : String) (hs : s.Accepted rules) :
    Ensures (Scanned.Accepted rules) (s.operand operands value) := by
  rw [Scanned.operand]
  split
  · exact ensures_ok hs
  · exact ensures_error _ _

theorem operands_accepted (values : List String) (hs : s.Accepted rules) :
    Ensures (Scanned.Accepted rules) (values.foldlM (fun s value => s.operand operands value) s) := by
  induction values generalizing s with
  | nil => exact ensures_ok hs
  | cons value rest ih =>
    rw [List.foldlM_cons]
    exact (operand_accepted value hs).bind fun _ => ih

/-- A state in which every option is accepted, and perhaps a rule that waits for its value. -/
def Waiting (rules : List OptionRule) (state : Scanned × Option OptionRule) : Prop :=
  state.1.Accepted rules ∧ ∀ rule ∈ state.2, rule ∈ rules

theorem waiting_none (hs : s.Accepted rules) : Waiting rules (s, none) := ⟨hs, nofun⟩

theorem waiting_some (hrule : rule ∈ rules) (hs : s.Accepted rules) : Waiting rules (s, some rule) :=
  ⟨hs, fun _ h => Option.some.inj h ▸ hrule⟩

theorem valued_accepted (value : String) (hrule : rule ∈ rules) (hs : s.Accepted rules) :
    Ensures (Waiting rules) (do .ok (← s.option rule value, none)) :=
  (option_accepted value hrule hs).bind fun _ hnext => ensures_ok (waiting_none hnext)

theorem scanLetters_accepted (letters : List Char) (hs : s.Accepted rules) :
    Ensures (Waiting rules) (scanLetters rules letters s) := by
  induction letters generalizing s with
  | nil => exact ensures_ok (waiting_none hs)
  | cons letter rest ih =>
    rw [scanLetters]
    split
    · exact ensures_error _ _
    next rule hfind =>
      have hrule := List.mem_of_find?_eq_some hfind
      split
      · split
        · exact ensures_ok (waiting_some hrule hs)
        · exact valued_accepted _ hrule hs
        · exact valued_accepted _ hrule hs
      · exact (option_accepted "" hrule hs).bind fun _ => ih

theorem scanLong_accepted (text : List Char) (hs : s.Accepted rules) :
    Ensures (Waiting rules) (scanLong rules text s) := by
  rw [scanLong]
  rcases splitLong text with ⟨name, value⟩
  simp only
  cases hfind : rules.find? fun rule => rule.name == name with
  | none => cases value <;> exact ensures_error _ _
  | some rule =>
    have hrule := List.mem_of_find?_eq_some hfind
    cases value with
    | none =>
      show Ensures _ (if _ then _ else _)
      split
      · exact ensures_ok (waiting_some hrule hs)
      · exact valued_accepted _ hrule hs
    | some value =>
      show Ensures _ (if _ then _ else _)
      split
      · exact valued_accepted _ hrule hs
      · exact ensures_error _ _

theorem scanDashed_accepted (argument : List Char) (hs : s.Accepted rules) :
    Ensures (fun found => ∀ state ∈ found, Waiting rules state) (scanDashed rules argument s) := by
  unfold scanDashed
  split
  · exact (scanLong_accepted _ hs).map fun _ h _ hfound => Option.some.inj hfound ▸ h
  · exact (scanLetters_accepted _ hs).map fun _ h _ hfound => Option.some.inj hfound ▸ h
  · exact ensures_ok nofun

/-- **Every option of a command line has a value that its rule accepts.** -/
theorem scan_accepted (arguments : List String) (hs : s.Accepted rules) :
    Ensures (Scanned.Accepted rules) (scan rules operands arguments s) := by
  fun_induction scan rules operands arguments s with
  | case1 => exact ensures_ok hs
  | case2 rest s => exact operands_accepted rest hs
  | case3 => exact ensures_error _ _
  | case4 => exact ensures_error _ _
  | case5 argument rest s hplain hdashed next hoperand ih => exact ih (operand_accepted argument hs next hoperand)
  | case6 argument rest s hplain next hdashed ih => exact ih (scanDashed_accepted _ hs _ hdashed _ rfl).1
  | case7 => exact ensures_error _ _
  | case8 => exact ensures_error _ _
  | case9 argument s hplain next rule hdashed value rest hfollow last hoption ih =>
    obtain ⟨hnext, hrule⟩ := scanDashed_accepted _ hs _ hdashed _ rfl
    exact ih (option_accepted value (hrule rule rfl) hnext last hoption)
  | case10 => exact ensures_error _ _

end Scanning

/-! ## Overlays -/

/-- What an option that is absent or given means: nothing, or what is read of its value. -/
inductive OptionMeans {ε α : Type} (read : String → Except ε α) : Option String → Option α → Prop where
  | absent : OptionMeans read none none
  | given {text : String} {a : α} (h : read text = .ok a) : OptionMeans read (some text) (some a)

theorem OptionMeans.eq_bind {ε α : Type} {read : String → Except ε α} {value : Option String} {meaning : Option α}
    (h : OptionMeans read value meaning) : meaning = value.bind fun text => succeeded? (read text) := by
  cases h with
  | absent => rfl
  | given hread => rw [Option.bind_some, hread, succeeded?]

/-- A command line that asks for an overlay, with what it chooses: the configuration file, by an option that may stand
in front of the name of the command or behind it, the unit system and the theme. -/
def AsksOverlay (arguments : List String) (named : Option String) (unit : Option Overlay.UnitSystem)
    (theme : Option Overlay.Theme) : Prop :=
  ∃ before rest scanned, scanCommon arguments .start = .ok before ∧ before.rest = "axis" :: rest ∧
    scan overlayRules (atMost 0) rest .start = .ok scanned ∧
    named = (scanned.value? "config").or (before.value? "config") ∧
    OptionMeans Overlay.UnitSystem.ofName (scanned.value? "unit") unit ∧
    OptionMeans Overlay.Theme.ofName (scanned.value? "theme") theme

section Overlays

variable {s : Scanned}

/-- An option whose rule accepts what can be read is read. -/
theorem optionMeans_of_accepted {ε α : Type} {read : String → Except ε α} {name : String}
    (hs : s.Accepted overlayRules)
    (hrule : ∀ rule ∈ overlayRules, rule.name = name →
      ∀ value, rule.accepts value = true → succeeds (read value) = true) :
    OptionMeans read (s.value? name) ((s.value? name).bind fun value => succeeded? (read value)) := by
  cases hgiven : s.value? name with
  | none => exact .absent
  | some value =>
    obtain ⟨⟨n, v⟩, hfind, rfl⟩ := Option.map_eq_some_iff.1 hgiven
    have hname : n = name := by simpa using List.find?_some hfind
    obtain ⟨rule, hmem, hn, haccepts⟩ := hs _ (List.mem_of_find?_eq_some hfind)
    have hread := hrule rule hmem (hn.trans hname) v haccepts
    rw [Option.bind_some]
    cases hv : read v with
    | error e =>
      rw [hv] at hread
      cases hread
    | ok a => exact .given hv

/-- The rules of the two options that choose settings accept what can be read. -/
theorem unit_rule : ∀ rule ∈ overlayRules, rule.name = "unit" →
    ∀ value, rule.accepts value = true → succeeds (Overlay.UnitSystem.ofName value) = true := by
  simp [overlayRules, commonRules, outputRule, pathRule, flagRule, numberRule]

theorem theme_rule : ∀ rule ∈ overlayRules, rule.name = "theme" →
    ∀ value, rule.accepts value = true → succeeds (Overlay.Theme.ofName value) = true := by
  simp [overlayRules, commonRules, outputRule, pathRule, flagRule, numberRule]

/-- The overlay that the command with a name and arguments asks for. -/
theorem taskOf_overlay {name : String} {arguments : List String} {bounds : Overlay.Bounds Float}
    {unit : Option Overlay.UnitSystem} {theme : Option Overlay.Theme} {output : Option String} {json : Bool}
    (h : taskOf name arguments = .ok (s, .overlay bounds unit theme output json)) :
    name = "axis" ∧ scan overlayRules (atMost 0) arguments .start = .ok s ∧
      unit = (s.value? "unit").bind (fun value => succeeded? (Overlay.UnitSystem.ofName value)) ∧
      theme = (s.value? "theme").bind (fun value => succeeded? (Overlay.Theme.ofName value)) := by
  unfold taskOf at h
  split at h
  · obtain ⟨scanned, -, h⟩ := bind_eq_ok h
    split at h <;> cases h
  · obtain ⟨scanned, hscan, h⟩ := bind_eq_ok h
    cases h
    exact ⟨rfl, hscan, rfl, rfl⟩
  · obtain ⟨scanned, -, h⟩ := bind_eq_ok h
    cases h
  · obtain ⟨scanned, -, h⟩ := bind_eq_ok h
    cases h
  · cases h
  · cases h

theorem asksOverlay_of_ofArguments {arguments : List String} {named : Option String} {bounds : Overlay.Bounds Float}
    {unit : Option Overlay.UnitSystem} {theme : Option Overlay.Theme} {output : Option String} {json : Bool}
    (h : Invocation.ofArguments arguments = .ok ⟨named, .overlay bounds unit theme output json⟩) :
    AsksOverlay arguments named unit theme := by
  obtain ⟨before, hbefore, h⟩ := bind_eq_ok h
  split at h
  · cases h
  next name rest hrest =>
    obtain ⟨⟨scanned, task⟩, htask, h⟩ := bind_eq_ok h
    cases h
    obtain ⟨rfl, hscan, rfl, rfl⟩ := taskOf_overlay htask
    have hscanned := scan_accepted rest (Scanned.accepted_start overlayRules) scanned hscan
    exact ⟨before, rest, scanned, hbefore, hrest, hscan, rfl, optionMeans_of_accepted hscanned unit_rule,
      optionMeans_of_accepted hscanned theme_rule⟩

/-- **The options that choose a unit system and a theme are read** if they are given: a command line asks for an overlay
with them just if that is what it means. -/
theorem ofArguments_overlay_iff {arguments : List String} {named : Option String} {unit : Option Overlay.UnitSystem}
    {theme : Option Overlay.Theme} :
    (∃ bounds output json, Invocation.ofArguments arguments = .ok ⟨named, .overlay bounds unit theme output json⟩) ↔
      AsksOverlay arguments named unit theme := by
  constructor
  · rintro ⟨bounds, output, json, h⟩
    exact asksOverlay_of_ofArguments h
  · rintro ⟨before, rest, scanned, hbefore, hrest, hscan, rfl, hunit, htheme⟩
    obtain rfl := hunit.eq_bind
    obtain rfl := htheme.eq_bind
    rw [Invocation.ofArguments, hbefore]
    simp only [bind, Except.bind, hrest, taskOf, hscan]
    exact ⟨_, _, _, rfl⟩

end Overlays

end SolidScript.Command
