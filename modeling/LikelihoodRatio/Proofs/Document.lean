/-
# Documents are read back

Settings and outcomes are written as records with all their parts, and read back from these
(`Settings.ofText_text`, `Outcome.ofText_text`).  Numbers that are not finite are the exception:
there is no numeral for them.  No document that can be read holds one, so whatever was read is
written in a form that is read again (`documents_read_back`).
-/
import LikelihoodRatio.Outcome.Document
import LikelihoodRatio.Proofs.Json.Reader
import LikelihoodRatio.Settings.Document

namespace LikelihoodRatio

namespace Json

/-! ### Parts that are written -/

lemma writable_ofFloat (x : Float) : (ofFloat x).Writable := by
  rw [ofFloat]
  split_ifs with hx
  · exact .number (wellFormed_numeralOfFloat hx)
  · exact .null

lemma float?_ofFloat {x : Float} (hx : x.isFinite = true) : (ofFloat x).float? = some x := by
  rw [ofFloat, if_pos hx, float?, toFloat_numeralOfFloat hx, if_pos hx]

lemma isFinite_of_float? {j : Json} {x : Float} (h : j.float? = some x) : x.isFinite = true := by
  cases j with
  | number n =>
    rw [float?] at h
    split_ifs at h with hfinite
    obtain rfl := Option.some.inj h
    exact hfinite
  | _ => cases h

/-- A part that may be missing is finite if its standard value is. -/
lemma isFinite_of_orDefault {part : Option Json} {default x : Float}
    (hdefault : default.isFinite = true) (h : orDefault default float? part = some x) :
    x.isFinite = true := by
  cases part with
  | none =>
    obtain rfl := Option.some.inj h
    exact hdefault
  | some j => exact isFinite_of_float? h

lemma writable_ofNat (n : ℕ) : (ofNat n).Writable := by
  have hdigits : ∀ c ∈ Decimal.digitChars n, c.isDigit = true := fun c => isDigit_of_mem_digitChars
  have hwhole : isWhole (Decimal.digitChars n) = true := by
    rcases eq_or_ne n 0 with rfl | hn
    · rfl
    · obtain ⟨d, ds, hds, hd⟩ := exists_digitChars_eq_cons hn
      rw [hds]
      exact isWhole_cons hd ds
  exact .number ⟨hwhole, hdigits, nofun, nofun, nofun⟩

lemma size?_ofNat {n : ℕ} (hn : n < 2 ^ 64) : (ofNat n).size? = some n := by
  have hvalue : Numeral.toNat? ⟨false, Decimal.digitChars n, [], none⟩ = some n := by
    rw [Numeral.toNat?, if_pos ⟨rfl, rfl, rfl⟩, valueOfDigits_digitChars]
  rw [ofNat, size?, hvalue]
  simpa using hn

lemma lt_of_size? {j : Json} {n : ℕ} (h : j.size? = some n) : n < 2 ^ 64 := by
  cases j with
  | number m =>
    rw [size?, Option.filter_eq_some_iff] at h
    simpa using h.2
  | _ => cases h

/-! ### Records -/

lemma writable_ofFields {fields : List (String × Json)} (h : ∀ f ∈ fields, f.2.Writable) :
    (ofFields fields).Writable := by
  refine .object ?_ ?_
  · exact List.forall_mem_map.2 fun _ _ => rfl
  · exact List.forall_mem_map.2 h

lemma namedFields?_map (fields : List (String × Json)) :
    namedFields? (fields.map fun f => (some f.1, f.2)) = some fields := by
  rw [namedFields?, List.mapM_map]
  induction fields with
  | nil => rfl
  | cons f fields ih =>
    rw [List.mapM_cons, ih]
    rfl

lemma filter_name_eq_nil {fields : List (String × Json)} {name : String}
    (h : ∀ f ∈ fields, f.1 ≠ name) : fields.filter (·.1 == name) = [] :=
  List.filter_eq_nil_iff.2 fun f hf => by simpa using h f hf

/-- Fields with different names are found, whatever fields with other names come first. -/
lemma mapM_fieldOf?_zip {names : List String} {values : List Json} (hnames : names.Nodup)
    (hlength : names.length = values.length) (before : List (String × Json))
    (hbefore : ∀ f ∈ before, f.1 ∉ names) :
    names.mapM (fieldOf? (before ++ names.zip values)) = some (values.map some) := by
  induction names generalizing values before with
  | nil =>
    rw [List.length_nil] at hlength
    rw [List.length_eq_zero_iff.1 hlength.symm]
    rfl
  | cons name names ih =>
    cases values with
    | nil => cases hlength
    | cons value values =>
      rw [List.nodup_cons] at hnames
      have hfirst : fieldOf? (before ++ (name, value) :: names.zip values) name =
          some (some value) := by
        have hfilter : before.filter (·.1 == name) = [] :=
          filter_name_eq_nil fun f hf heq => hbefore f hf (heq ▸ List.mem_cons_self)
        have hafter : (names.zip values).filter (·.1 == name) = [] :=
          filter_name_eq_nil fun f hf heq => hnames.1 (heq ▸ (List.of_mem_zip hf).1)
        rw [fieldOf?, List.filter_append, hfilter, List.filter_cons_of_pos (by simp), hafter]
        rfl
      have hbefore' : ∀ f ∈ before ++ [(name, value)], f.1 ∉ names := by
        intro f hf
        rcases List.mem_append.1 hf with hf | hf
        · exact fun hmem => hbefore f hf (List.mem_cons_of_mem name hmem)
        · rw [List.mem_singleton.1 hf]
          exact hnames.1
      have hrest := ih hnames.2 (Nat.succ.inj hlength) (before ++ [(name, value)]) hbefore'
      rw [List.append_assoc, List.singleton_append] at hrest
      rw [List.zip_cons_cons, List.mapM_cons, hfirst, hrest]
      rfl

/-- A record with all its parts. -/
lemma record?_ofFields {names : List String} {values : List Json} (hnames : names.Nodup)
    (hlength : names.length = values.length) :
    (ofFields (names.zip values)).record? names = some (values.map some) := by
  have hfields := mapM_fieldOf?_zip hnames hlength [] nofun
  rw [ofFields, record?, namedFields?_map, Option.bind_some]
  exact hfields

end Json

/-! ### Settings -/

lemma Hypothesis.ofName?_name (h : Hypothesis) : ofName? h.name = some h := by
  cases h <;> decide

namespace Settings

variable {s : Settings}

lemma writable_toJson (s : Settings) : s.toJson.Writable := by
  refine Json.writable_ofFields ?_
  simp only [parts, List.zip_cons_cons, List.zip_nil_left, List.forall_mem_cons]
  exact ⟨Json.writable_ofFloat s.alpha, .string s.hypothesis.name, .bool s.parallel, nofun⟩

/-- Only the level decides whether settings are read back. -/
lemma ofText_text_eq (s : Settings) : ofText s.text =
    match (Json.ofFloat s.alpha).float? with
    | some alpha => .ok { s with alpha }
    | none => .error .unreadable := by
  have hrecord : s.toJson.record? parts =
      some [some (.ofFloat s.alpha), some (.ofString s.hypothesis.name), some (.bool s.parallel)] :=
    Json.record?_ofFields (by decide) rfl
  have hhypothesis : Hypothesis.ofJson? (.ofString s.hypothesis.name) = some s.hypothesis :=
    Hypothesis.ofName?_name s.hypothesis
  rw [ofText, text, Json.ofText?_text s.writable_toJson, Option.bind_some, ofJson?, hrecord]
  cases hfloat : (Json.ofFloat s.alpha).float? with
  | none => simp [Json.orDefault, hfloat]
  | some alpha => simp [Json.orDefault, hfloat, hhypothesis, Json.bool?]

/-- Settings are read back. -/
theorem ofText_text (h : s.alpha.isFinite = true) : ofText s.text = .ok s := by
  rw [ofText_text_eq, Json.float?_ofFloat h]

/-- A level that is not finite has no numeral. -/
theorem ofText_text_of_not_isFinite (h : s.alpha.isFinite = false) :
    ofText s.text = .error .unreadable := by
  rw [ofText_text_eq, Json.ofFloat, if_neg (by simp [h])]
  rfl

lemma isFinite_of_ofJson? {document : Json} (h : ofJson? document = some s) :
    s.alpha.isFinite = true := by
  simp only [ofJson?, Option.bind_eq_bind, Option.bind_eq_some_iff] at h
  obtain ⟨values, -, hvalues⟩ := h
  split at hvalues
  · simp only [Option.bind_eq_some_iff] at hvalues
    obtain ⟨alpha, halpha, hypothesis, -, parallel, -, hs⟩ := hvalues
    obtain rfl := Option.some.inj hs
    exact Json.isFinite_of_orDefault (by decide +kernel) halpha
  · cases hvalues

/-- The level in a document is finite, be it given or the standard one. -/
lemma isFinite_of_ofText {text : String} (h : ofText text = .ok s) : s.alpha.isFinite = true := by
  rw [ofText] at h
  split at h
  · next hjson =>
    obtain rfl := Except.ok.inj h
    obtain ⟨document, -, hdocument⟩ := Option.bind_eq_some_iff.1 hjson
    exact isFinite_of_ofJson? hdocument
  · cases h

/-- A place that holds nothing to load is entered into the log all the same. -/
lemma load_eq (name : String) (place : Place) :
    load name place = ⟨place.fetch >>= ofText, [.loading name]⟩ := by
  rw [load, Logged.bind_of_ok _ rfl]
  cases place.fetch with
  | error e => rfl
  | ok text => rfl

/-- Settings are loaded from where they were saved. -/
theorem result_load_of_save {place place' : Place} (hsave : s.save place = .ok place')
    (h : s.alpha.isFinite = true) (name : String) : (load name place').result = .ok s := by
  have hplace : place' = .holding s.text := by
    cases place with
    | missing => cases hsave
    | vacant => exact (Except.ok.inj hsave).symm
    | holding text => exact (Except.ok.inj hsave).symm
  rw [load_eq, hplace]
  exact ofText_text h

end Settings

/-! ### Outcomes -/

namespace Outcome

variable {o : Outcome}

lemma writable_toJson (o : Outcome) : o.toJson.Writable := by
  refine Json.writable_ofFields ?_
  simp only [parts, List.zip_cons_cons, List.zip_nil_left, List.forall_mem_cons]
  exact ⟨Json.writable_ofFloat o.statistic, Json.writable_ofNat o.degreesOfFreedom,
    Json.writable_ofFloat o.pValue, nofun⟩

/-- The outcomes that can be read back: the statistic and the p-value are finite, and the degrees of
freedom have 64 bits. -/
structure Readable (o : Outcome) : Prop where
  statistic : o.statistic.isFinite = true
  degreesOfFreedom : o.degreesOfFreedom < 2 ^ 64
  pValue : o.pValue.isFinite = true

/-- Outcomes are read back. -/
theorem ofText_text (h : o.Readable) : ofText o.text = .ok o := by
  have hrecord : o.toJson.record? parts = some [some (.ofFloat o.statistic),
      some (.ofNat o.degreesOfFreedom), some (.ofFloat o.pValue)] :=
    Json.record?_ofFields (by decide) rfl
  rw [ofText, text, Json.ofText?_text o.writable_toJson, Option.bind_some, ofJson?, hrecord]
  simp [Json.float?_ofFloat h.statistic, Json.size?_ofNat h.degreesOfFreedom,
    Json.float?_ofFloat h.pValue]

lemma readable_of_ofJson? {document : Json} (h : ofJson? document = some o) : o.Readable := by
  simp only [ofJson?, Option.bind_eq_bind, Option.bind_eq_some_iff] at h
  obtain ⟨values, -, hvalues⟩ := h
  split at hvalues
  · simp only [Option.bind_eq_some_iff] at hvalues
    obtain ⟨statistic, hstatistic, df, hdf, pValue, hpValue, ho⟩ := hvalues
    obtain rfl := Option.some.inj ho
    exact ⟨Json.isFinite_of_float? hstatistic, Json.lt_of_size? hdf,
      Json.isFinite_of_float? hpValue⟩
  · cases hvalues

/-- What a text holds can be read back. -/
lemma readable_of_ofText {text : String} (h : ofText text = .ok o) : o.Readable := by
  rw [ofText] at h
  split at h
  · next hjson =>
    obtain rfl := Except.ok.inj h
    obtain ⟨document, -, hdocument⟩ := Option.bind_eq_some_iff.1 hjson
    exact readable_of_ofJson? hdocument
  · cases h

end Outcome

/-! ### Documents -/

/-- **Documents are read back.**  Settings are, with whatever level that is finite; with another
level the document holds no level, and there is nothing to read.  Outcomes are, with whatever
degrees of freedom 64 bits can hold.  And whatever text settings or an outcome were read from,
writing them gives a text that the same settings or the same outcome are read from. -/
theorem documents_read_back :
    (∀ s : Settings, s.alpha.isFinite = true → Settings.ofText s.text = .ok s) ∧
      (∀ s : Settings, s.alpha.isFinite = false → Settings.ofText s.text = .error .unreadable) ∧
      (∀ (text : String) (s : Settings),
        Settings.ofText text = .ok s → Settings.ofText s.text = .ok s) ∧
      (∀ o : Outcome, o.Readable → Outcome.ofText o.text = .ok o) ∧
      ∀ (text : String) (o : Outcome),
        Outcome.ofText text = .ok o → o.Readable ∧ Outcome.ofText o.text = .ok o := by
  refine ⟨fun s => Settings.ofText_text, fun s => Settings.ofText_text_of_not_isFinite, ?_,
    fun o => Outcome.ofText_text, ?_⟩
  · intro text s h
    exact Settings.ofText_text (Settings.isFinite_of_ofText h)
  · intro text o h
    have hreadable := Outcome.readable_of_ofText h
    exact ⟨hreadable, Outcome.ofText_text hreadable⟩

/-- The standard settings, an infinite level, settings that are not in the form in which they are
written, and outcomes with the most degrees of freedom and with a negative statistic. -/
theorem documents_read_back_normalized :
    Settings.ofText Settings.standard.text = .ok Settings.standard ∧
      Settings.ofText (Settings.mk (1 / 0) .simple false).text = .error .unreadable ∧
      Settings.ofText (Settings.mk 1 .simple true).text = .ok (Settings.mk 1 .simple true) ∧
      Outcome.ofText (Outcome.mk 0 (2 ^ 64 - 1) 1).text = .ok (Outcome.mk 0 (2 ^ 64 - 1) 1) ∧
      (Outcome.mk (-2.5) 3 0.25).Readable ∧
      Outcome.ofText (Outcome.mk (-2.5) 3 0.25).text = .ok (Outcome.mk (-2.5) 3 0.25) := by
  obtain ⟨hfinite, hinfinite, hsettings, hreadable, houtcome⟩ := documents_read_back
  refine ⟨hfinite _ (by decide +kernel), hinfinite _ (by decide +kernel), ?_, ?_, ?_⟩
  · exact hsettings "\x7b\"parallel\": true, \"note\": [], \"alpha\": 1\x7d" _ (by decide +kernel)
  · exact hreadable _ ⟨by decide +kernel, by decide, by decide +kernel⟩
  · exact houtcome "[-25e-1, 3, 0.250]" _ (by decide +kernel)

end LikelihoodRatio
