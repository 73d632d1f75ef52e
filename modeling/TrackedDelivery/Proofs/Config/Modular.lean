import TrackedDelivery.Proofs.Config.Keys
/-!
# Configurations key by key

A configuration is refused exactly if some key is bad on its own, and the first such key decides
the error. If it is accepted, every field comes from its own key: maps that differ in one key give
configurations that differ in the field of this key at most, and so do the options for connecting
and for subscribing. Only the subscription's name is sensitive to blanks, and a key that is not
understood matters to nothing.
-/
namespace TrackedDelivery
open Config (Key)

/-- The options with what a key contributes replaced, if the key is one of theirs. -/
def ClientOptions.replace (o : ClientOptions) : (k : Key) → k.Value → ClientOptions
  | .url, v => { o with url := v }
  | .connectionTimeout, v => { o with connectionTimeout := v }
  | .operationTimeout, v => { o with operationTimeout := v }
  | .maxConnectionsPerBroker, v => { o with maxConnectionsPerBroker := v }
  | .memoryLimitBytes, v => { o with memoryLimitBytes := v }
  | .enableTransaction, v => { o with enableTransaction := v }
  | .tlsCertificateFile, v => { o with tlsCertificateFile := v }
  | .tlsKeyFilePath, v => { o with tlsKeyFilePath := v }
  | .tlsTrustCertsFilePath, v => { o with tlsTrustCertsFilePath := v }
  | .tlsAllowInsecureConnection, v => { o with tlsAllowInsecureConnection := v }
  | .tlsValidateHostname, v => { o with tlsValidateHostname := v }
  | .disableLogging, v => { o with disableLogging := v }
  | .topic, _ | .subscriptionName, _ | .subscriptionType, _ => o

def SubscribeOptions.replace (o : SubscribeOptions) : (k : Key) → k.Value → SubscribeOptions
  | .topic, v => { o with topic := v }
  | .subscriptionType, v => { o with type := v }
  | _, _ => o

namespace Config

def replace (c : Config) : (k : Key) → k.Value → Config
  | .topic, v => { c with topic := v }
  | .subscriptionName, v => { c with subscriptionName := v }
  | .subscriptionType, v => { c with subscriptionType := v }
  | k, v => { c with client := c.client.replace k v }

theorem client_replace (c : Config) (k : Key) (v : k.Value) :
    (c.replace k v).client = c.client.replace k v := by
  cases k <;> rfl

theorem subscribeOptions_replace (c : Config) (k : Key) (v : k.Value) (name : String) :
    (c.replace k v).subscribeOptions name = (c.subscribeOptions name).replace k v := by
  cases k <;> rfl

theorem field_replace_self (c : Config) (k : Key) (v : k.Value) : (c.replace k v).field k = v := by
  cases k <;> rfl

theorem field_replace_of_ne (c : Config) {k l : Key} (h : l ≠ k) (v : k.Value) :
    (c.replace k v).field l = c.field l := by
  cases k <;> cases l <;> first | rfl | exact absurd rfl h

/-- A configuration that agrees with another on all keys but one is the other one with the
contribution of this key replaced. -/
theorem eq_replace {c d : Config} {k : Key} (h : ∀ l, l ≠ k → c.field l = d.field l) :
    d = c.replace k (d.field k) := by
  refine eq_of_field_eq fun l => ?_
  by_cases hl : l = k
  · subst hl
    exact (field_replace_self ..).symm
  · rw [field_replace_of_ne c hl, h l hl]

/-- What makes the value of a key bad on its own, with the error that tells so. -/
inductive Key.Refuses (k : Key) : Option String → Error → Prop
  | absent : k.required = true → k.Refuses none (.missing k)
  | blank {s : String} : k.required = true → k ≠ subscriptionName → Text.trim s = "" →
      k.Refuses (some s) (.missing k)
  | rejected {s : String} {reason : Reason} : Text.trim s ≠ "" →
      k.parse (Text.trim s) = .error reason →
      k.Refuses (some s) (.invalid k (Text.trim s) reason)

namespace Key

theorem default?_eq_none_iff {k : Key} : k.default? = none ↔ k.required = true := by
  cases k <;> decide

theorem read_of_trim_eq_empty {k : Key} (hk : k ≠ subscriptionName) {s : String}
    (hs : Text.trim s = "") : k.read (some s) = k.read none := by
  rw [read, read, given?_of_ne hk, given?_of_ne hk, Option.map_some, hs]
  rfl

theorem read_of_trim_ne_empty {k : Key} (hk : k ≠ subscriptionName) {s : String}
    (hs : Text.trim s ≠ "") :
    k.read (some s) = (k.parse (Text.trim s)).mapError (.invalid k (Text.trim s)) := by
  have hgiven : k.given? (some s) = some (Text.trim s) := by
    rw [given?_of_ne hk, Option.map_some]
    exact Option.filter_some_pos (by simpa using hs)
  rw [read, hgiven]

theorem read_none_eq_error_iff {k : Key} {e : Error} :
    k.read none = .error e ↔ k.required = true ∧ e = .missing k := by
  have hgiven : k.given? none = none := by cases k <;> rfl
  rw [read, hgiven, ← default?_eq_none_iff]
  cases k.default? with
  | none => exact ⟨fun h => ⟨rfl, (Except.error.inj h).symm⟩, fun h => h.2 ▸ rfl⟩
  | some v =>
      constructor
      · intro h
        cases h
      · rintro ⟨hnone, -⟩
        cases hnone

theorem mapError_eq_error_iff {α : Type} {x : Except Reason α} {f : Reason → Error} {e : Error} :
    x.mapError f = .error e ↔ ∃ reason, x = .error reason ∧ e = f reason := by
  cases x with
  | ok a => exact ⟨nofun, nofun⟩
  | error reason =>
      constructor
      · rintro ⟨⟩
        exact ⟨reason, rfl, rfl⟩
      · rintro ⟨_, ⟨⟩, rfl⟩
        rfl

/-- A key refuses its value exactly if the value is bad on its own. -/
theorem read_eq_error_iff {k : Key} {raw : Option String} {e : Error} :
    k.read raw = .error e ↔ k.Refuses raw e := by
  constructor
  · intro h
    cases raw with
    | none =>
        obtain ⟨hrequired, rfl⟩ := read_none_eq_error_iff.mp h
        exact .absent hrequired
    | some s =>
        by_cases hk : k = subscriptionName
        · subst hk
          cases h
        · by_cases hs : Text.trim s = ""
          · rw [read_of_trim_eq_empty hk hs] at h
            obtain ⟨hrequired, rfl⟩ := read_none_eq_error_iff.mp h
            exact .blank hrequired hk hs
          · rw [read_of_trim_ne_empty hk hs] at h
            obtain ⟨reason, hparse, rfl⟩ := mapError_eq_error_iff.mp h
            exact .rejected hs hparse
  · intro h
    cases h with
    | absent hrequired => exact read_none_eq_error_iff.mpr ⟨hrequired, rfl⟩
    | blank hrequired hk hs =>
        rw [read_of_trim_eq_empty hk hs]
        exact read_none_eq_error_iff.mpr ⟨hrequired, rfl⟩
    | @rejected s reason hs hparse =>
        have hk : k ≠ subscriptionName := by
          rintro rfl
          cases hparse
        rw [read_of_trim_ne_empty hk hs]
        exact mapError_eq_error_iff.mpr ⟨reason, hparse, rfl⟩

theorem fault?_eq_some_iff_refuses {k : Key} {raw : Option String} {e : Error} :
    k.fault? raw = some e ↔ k.Refuses raw e :=
  fault?_eq_some_iff.trans read_eq_error_iff

/-- Blanks around a value are not part of it. -/
theorem read_append {k : Key} (hk : k ≠ subscriptionName) {front back : String} (value : String)
    (hfront : ∀ c ∈ front.toList, Text.isBlank c = true)
    (hback : ∀ c ∈ back.toList, Text.isBlank c = true) :
    k.read (some (front ++ value ++ back)) = k.read (some value) := by
  rw [read, read, given?_of_ne hk, given?_of_ne hk, Option.map_some, Option.map_some,
    Text.trim_append value hfront hback]

end Key

variable {pairs p q : TextMap String}

theorem ofPairs_eq_error_iff_findSome? {e : Error} :
    ofPairs pairs = .error e ↔
      (Key.all.findSome? fun k => k.fault? (pairs.find? k.name)) = some e := by
  have h := settles_ofPairs pairs
  rw [Settles] at h
  split at h
  case h_1 e' he =>
    rw [h, he]
    exact ⟨fun h => congrArg some (Except.error.inj h), fun h => congrArg _ (Option.some.inj h)⟩
  case h_2 hnone =>
    obtain ⟨c, hc, -⟩ := h
    rw [hc, hnone]
    constructor
    · intro h
      cases h
    · intro h
      cases h

/-- The first key in the order of the listing that is bad on its own decides the error. -/
theorem ofPairs_eq_error_iff {e : Error} :
    ofPairs pairs = .error e ↔ ∃ front k back, Key.all = front ++ k :: back ∧
      (∀ l ∈ front, ∀ e', ¬l.Refuses (pairs.find? l.name) e') ∧
      k.Refuses (pairs.find? k.name) e := by
  rw [ofPairs_eq_error_iff_findSome?, List.findSome?_eq_some_iff]
  constructor
  · rintro ⟨front, k, back, hall, hk, hfront⟩
    refine ⟨front, k, back, hall, fun l hl e' he' => ?_, Key.fault?_eq_some_iff_refuses.mp hk⟩
    rw [← Key.fault?_eq_some_iff_refuses, hfront l hl] at he'
    cases he'
  · rintro ⟨front, k, back, hall, hfront, hk⟩
    refine ⟨front, k, back, hall, Key.fault?_eq_some_iff_refuses.mpr hk, fun l hl => ?_⟩
    exact Option.eq_none_iff_forall_ne_some.mpr fun e' he' =>
      hfront l hl e' (Key.fault?_eq_some_iff_refuses.mp he')

/-- Some key is bad on its own exactly if the configuration is refused. -/
theorem exists_ofPairs_eq_error_iff :
    (∃ e, ofPairs pairs = .error e) ↔ ∃ k e, Key.Refuses k (pairs.find? k.name) e := by
  simp only [ofPairs_eq_error_iff_findSome?, ← Key.fault?_eq_some_iff_refuses]
  rw [← Option.isSome_iff_exists, List.findSome?_isSome_iff]
  simp only [Option.isSome_iff_exists, Key.mem_all, true_and]

/-- A configuration is accepted with what every key contributes on its own. -/
theorem ofPairs_eq_ok_iff {c : Config} :
    ofPairs pairs = .ok c ↔ ∀ k : Key, k.read (pairs.find? k.name) = .ok (c.field k) := by
  have h := settles_ofPairs pairs
  rw [Settles] at h
  split at h
  case h_1 e he =>
    rw [h]
    constructor
    · intro hc
      cases hc
    · intro hfields
      obtain ⟨k, -, hk⟩ := List.exists_of_findSome?_eq_some he
      cases (hfields k).symm.trans (Key.fault?_eq_some_iff.mp hk)
  case h_2 =>
    obtain ⟨d, hd, hread⟩ := h
    rw [hd]
    constructor
    · rintro ⟨⟩
      exact hread
    · intro hfields
      have heq : d = c := eq_of_field_eq fun k => Except.ok.inj ((hread k).symm.trans (hfields k))
      exact congrArg _ heq

/-- The contributions of the keys decide everything. -/
theorem ofPairs_congr (h : ∀ k : Key, k.read (p.find? k.name) = k.read (q.find? k.name)) :
    ofPairs p = ofPairs q := by
  cases hp : ofPairs p with
  | ok c =>
      refine (ofPairs_eq_ok_iff.mpr fun k => ?_).symm
      rw [← h k]
      exact ofPairs_eq_ok_iff.mp hp k
  | error e =>
      refine (ofPairs_eq_error_iff_findSome?.mpr ?_).symm
      have hfault (k : Key) : k.fault? (q.find? k.name) = k.fault? (p.find? k.name) := by
        rw [Key.fault?, Key.fault?, h k]
      simp only [hfault]
      exact ofPairs_eq_error_iff_findSome?.mp hp

/-- A change at one key matters only to what this key contributes. -/
theorem ofPairs_congr_of_key {k : Key} (hother : ∀ l : Key, l ≠ k → p.find? l.name = q.find? l.name)
    (hk : k.read (p.find? k.name) = k.read (q.find? k.name)) : ofPairs p = ofPairs q := by
  refine ofPairs_congr fun l => ?_
  by_cases hl : l = k
  · rw [hl, hk]
  · rw [hother l hl]

theorem name_ne_name {k l : Key} (h : l ≠ k) : l.name ≠ k.name := fun hname =>
  h (Key.name_injective hname)

/-- Reading a configuration is modular in its keys: it is refused exactly if some key is bad on
its own, with the error of the first such key; if it is accepted then every field is read from its
own key, so that maps that differ in one key give configurations and options that differ in what
this key contributes at most; blanks around a value change nothing and a blank value acts as an
absent one for all keys but the subscription's name, which is taken verbatim; and maps that agree
on the keys that are understood give the same result. The options that a client is connected with
are the field `client` of the configuration, and what is said of options is said of that field. -/
theorem ofPairs_modular :
    (∀ pairs, (∃ e, ofPairs pairs = .error e) ↔ ∃ k e, Key.Refuses k (pairs.find? k.name) e) ∧
    (∀ pairs e, ofPairs pairs = .error e ↔ ∃ front k back, Key.all = front ++ k :: back ∧
      (∀ l ∈ front, ∀ e', ¬l.Refuses (pairs.find? l.name) e') ∧
      k.Refuses (pairs.find? k.name) e) ∧
    (∀ pairs c, ofPairs pairs = .ok c ↔
      ∀ k : Key, k.read (pairs.find? k.name) = .ok (c.field k)) ∧
    (∀ (p q : TextMap String) (c d : Config) (k : Key),
      (∀ l : Key, l ≠ k → p.find? l.name = q.find? l.name) →
      ofPairs p = .ok c → ofPairs q = .ok d →
        d = c.replace k (d.field k) ∧ d.client = c.client.replace k (d.field k) ∧
        ∀ name, d.subscribeOptions name = (c.subscribeOptions name).replace k (d.field k)) ∧
    (∀ (pairs : TextMap String) (k : Key) (front value back : String), k ≠ .subscriptionName →
      (∀ c ∈ front.toList, Text.isBlank c = true) → (∀ c ∈ back.toList, Text.isBlank c = true) →
        ofPairs (pairs.insert k.name (front ++ value ++ back)) =
          ofPairs (pairs.insert k.name value)) ∧
    (∀ (pairs : TextMap String) (k : Key) (value : String), k ≠ .subscriptionName →
      (∀ c ∈ value.toList, Text.isBlank c = true) →
        ofPairs (pairs.insert k.name value) = ofPairs (pairs.erase k.name)) ∧
    (∀ (pairs : TextMap String) (name : String) (c : Config),
      pairs.find? Key.subscriptionName.name = some name → ofPairs pairs = .ok c →
        c.subscriptionName = if name.isEmpty then none else some name) ∧
    (∀ p q : TextMap String, (∀ s, Key.isKnown s = true → p.find? s = q.find? s) →
      ofPairs p = ofPairs q) := by
  refine ⟨fun _ => exists_ofPairs_eq_error_iff, fun _ _ => ofPairs_eq_error_iff,
    fun _ _ => ofPairs_eq_ok_iff, ?_, ?_, ?_, ?_, ?_⟩
  · intro p q c d k hother hp hq
    have heq : d = c.replace k (d.field k) := eq_replace fun l hl => by
      have hreadp := ofPairs_eq_ok_iff.mp hp l
      have hreadq := ofPairs_eq_ok_iff.mp hq l
      rw [hother l hl] at hreadp
      exact Except.ok.inj (hreadp.symm.trans hreadq)
    refine ⟨heq, ?_, fun name => ?_⟩
    · rw [← client_replace, ← heq]
    · rw [← subscribeOptions_replace, ← heq]
  · intro pairs k front value back hk hfront hback
    refine ofPairs_congr_of_key (k := k) (fun l hl => ?_) ?_
    · rw [TextMap.find?_insert, TextMap.find?_insert, if_neg (name_ne_name hl),
        if_neg (name_ne_name hl)]
    · rw [TextMap.find?_insert, TextMap.find?_insert, if_pos rfl, if_pos rfl]
      exact Key.read_append hk value hfront hback
  · intro pairs k value hk hblank
    refine ofPairs_congr_of_key (k := k) (fun l hl => ?_) ?_
    · rw [TextMap.find?_insert, TextMap.find?_erase, if_neg (name_ne_name hl),
        if_neg (name_ne_name hl)]
    · rw [TextMap.find?_insert, TextMap.find?_erase, if_pos rfl, if_pos rfl]
      exact Key.read_of_trim_eq_empty hk (Text.trim_of_blank hblank)
  · intro pairs name c hname hc
    have hread := ofPairs_eq_ok_iff.mp hc .subscriptionName
    rw [hname] at hread
    exact (Except.ok.inj hread).symm
  · intro p q hknown
    have hagree (k : Key) : p.find? k.name = q.find? k.name :=
      hknown k.name (List.any_eq_true.mpr ⟨k, k.mem_all, decide_eq_true rfl⟩)
    exact ofPairs_congr fun k => congrArg k.read (hagree k)

/-- The required keys with a name that is surrounded by blanks, and what is read from them. -/
def samplePairs : TextMap String :=
  .ofList [("url", "pulsar://localhost"), ("topic", "orders"), ("subscriptionName", " s ")]

def sampleConfig : Config :=
  (minimal "pulsar://localhost" "orders").withSubscriptionName " s "

theorem samplePairs_modular :
    ofPairs samplePairs = .ok sampleConfig ∧
    ofPairs (samplePairs.insert "disableLogging" " TRUE\n") =
      .ok (sampleConfig.replace .disableLogging true) ∧
    (sampleConfig.replace .disableLogging true).client =
      sampleConfig.client.replace .disableLogging true ∧
    ofPairs (samplePairs.insert "disableLogging" (" " ++ "TRUE" ++ "\n")) =
      ofPairs (samplePairs.insert "disableLogging" "TRUE") ∧
    ofPairs (samplePairs.insert "disableLogging" " \t") =
      ofPairs (samplePairs.erase "disableLogging") ∧
    sampleConfig.subscriptionName = some " s " ∧
    ofPairs (samplePairs.insert "retries" "-1") = ofPairs samplePairs := by
  obtain ⟨-, -, -, hone, hblanks, hblank, hname, hunknown⟩ := ofPairs_modular
  have hother (l : Key) (hl : l ≠ .disableLogging) : samplePairs.find? l.name =
      (samplePairs.insert "disableLogging" " TRUE\n").find? l.name := by
    have hne : l.name ≠ "disableLogging" := name_ne_name (k := .disableLogging) hl
    rw [TextMap.find?_insert, if_neg hne]
  refine ⟨rfl, rfl, (hone _ _ _ _ .disableLogging hother rfl rfl).2.1,
    hblanks samplePairs .disableLogging " " "TRUE" "\n" nofun (List.all_eq_true.mp rfl)
      (List.all_eq_true.mp rfl),
    hblank samplePairs .disableLogging " \t" nofun (List.all_eq_true.mp rfl),
    hname samplePairs " s " sampleConfig rfl rfl,
    hunknown _ _ fun s hs => ?_⟩
  have hne : s ≠ "retries" := by
    rintro rfl
    exact absurd hs (by decide)
  rw [TextMap.find?_insert, if_neg hne]

end Config
end TrackedDelivery
