/-
# Settings in a document of any form

Settings are taken from every text that spells an object in which each of their parts occurs at
most once and has a value of its kind (`Settings.Admissible`): the parts that are there have the
values in the document, and the others are those of the standard settings (`Settings.HeldBy`).  The
order of the fields, the fields with other names and the way in which the object is spelled do not
matter.  A part that occurs twice is refused.  The main statement is `Settings.ofText_spelled`.

A part depends on the fields of its own name only, and what follows from that is proved for all
three of them at once (`Json.exists_partOf?`, `Json.partOf?_eq_none`, `Json.partOf?_perm`).
-/
import LikelihoodRatio.Proofs.Document

namespace LikelihoodRatio

namespace Json

/-! ### Fields by name -/

section Fields

variable {α : Type} {fields fields' : List (String × Json)} {name : String}

/-- How often a name occurs. -/
lemma length_filter_name (fields : List (String × Json)) (name : String) :
    (fields.filter (·.1 == name)).length = (fields.map Prod.fst).count name := by
  rw [List.count, List.countP_map, List.countP_eq_length_filter]
  rfl

lemma fieldOf?_eq_none (h : 2 ≤ (fields.map Prod.fst).count name) :
    fieldOf? fields name = none := by
  rw [← length_filter_name] at h
  rw [fieldOf?]
  split
  · next hnil => simp [hnil] at h
  · next hone => simp [hone] at h
  · rfl

lemma fieldOf?_of_notMem (h : name ∉ fields.map Prod.fst) : fieldOf? fields name = some none := by
  have hnil : fields.filter (·.1 == name) = [] :=
    filter_name_eq_nil fun f hf heq => h (heq ▸ List.mem_map_of_mem hf)
  rw [fieldOf?, hnil]

lemma fieldOf?_of_mem {v : Json} (hmem : (name, v) ∈ fields)
    (honce : (fields.map Prod.fst).count name ≤ 1) : fieldOf? fields name = some (some v) := by
  have hfilter : (name, v) ∈ fields.filter (·.1 == name) := List.mem_filter.2 ⟨hmem, by simp⟩
  rw [← length_filter_name] at honce
  obtain ⟨f, hf⟩ := List.length_eq_one_iff.1
    (le_antisymm honce (List.length_pos_of_mem hfilter))
  rw [hf, List.mem_singleton] at hfilter
  rw [fieldOf?, hf, ← hfilter]

/-- Neither the order nor the fields with other names matter. -/
lemma fieldOf?_perm (h : (fields.filter (·.1 == name)).Perm (fields'.filter (·.1 == name))) :
    fieldOf? fields name = fieldOf? fields' name := by
  rw [fieldOf?, fieldOf?]
  generalize fields.filter (·.1 == name) = found at h
  generalize fields'.filter (·.1 == name) = found' at h
  cases found with
  | nil => rw [h.nil_eq]
  | cons f found =>
    cases found with
    | nil => rw [h.singleton_eq]
    | cons g found =>
      have hlength := h.length_eq
      cases found' with
      | nil => cases hlength
      | cons f' found' =>
        cases found' with
        | nil => cases hlength
        | cons g' found' => rfl

/-! ### Parts that may be missing -/

/-- A part of a record: the value of the only field of its name, or a value to take if there is no
such field. -/
def partOf? (fields : List (String × Json)) (name : String) (missing : α)
    (read? : Json → Option α) : Option α :=
  (fieldOf? fields name).bind (orDefault missing read?)

variable {missing : α} {read? : Json → Option α}

/-- A part whose value can be read. -/
lemma exists_partOf? (missing : α) (read? : Json → Option α)
    (honce : (fields.map Prod.fst).count name ≤ 1)
    (hread : ∀ v, (name, v) ∈ fields → ∃ x, read? v = some x) :
    ∃ x, partOf? fields name missing read? = some x ∧
      (∀ v, (name, v) ∈ fields → read? v = some x) ∧
        (name ∉ fields.map Prod.fst → x = missing) := by
  by_cases hmem : name ∈ fields.map Prod.fst
  · obtain ⟨⟨_, v⟩, hv, rfl⟩ := List.mem_map.1 hmem
    obtain ⟨x, hx⟩ := hread v hv
    have hfield := fieldOf?_of_mem hv honce
    refine ⟨x, ?_, fun w hw => ?_, fun hnot => absurd hmem hnot⟩
    · rw [partOf?, hfield]
      exact hx
    · have hsame := (fieldOf?_of_mem hw honce).symm.trans hfield
      rw [Option.some.inj (Option.some.inj hsame), hx]
  · refine ⟨missing, ?_, fun v hv => absurd (List.mem_map_of_mem hv) hmem, fun _ => rfl⟩
    rw [partOf?, fieldOf?_of_notMem hmem]
    rfl

lemma partOf?_eq_none (h : 2 ≤ (fields.map Prod.fst).count name) :
    partOf? fields name missing read? = none := by
  rw [partOf?, fieldOf?_eq_none h]
  rfl

lemma partOf?_perm (h : (fields.filter (·.1 == name)).Perm (fields'.filter (·.1 == name))) :
    partOf? fields name missing read? = partOf? fields' name missing read? := by
  rw [partOf?, fieldOf?_perm h, partOf?]

end Fields

end Json

namespace Settings

open Json

variable {fields fields' : List (String × Json)}

/-! ### Settings in an object -/

/-- Settings are put together from their parts. -/
lemma ofJson?_ofFields (fields : List (String × Json)) :
    ofJson? (ofFields fields) = do
      let alpha ← partOf? fields "alpha" alphaIfMissing float?
      let hypothesis ← partOf? fields "hypothesis" hypothesisIfMissing Hypothesis.ofJson?
      let parallel ← partOf? fields "parallel" parallelIfMissing bool?
      return ⟨alpha, hypothesis, parallel⟩ := by
  rw [ofJson?, ofFields, record?, namedFields?_map, partOf?, partOf?, partOf?]
  -- All three fields are looked up before the first one is read.
  cases halpha : fieldOf? fields "alpha" <;>
    cases hhypothesis : fieldOf? fields "hypothesis" <;>
      cases hparallel : fieldOf? fields "parallel" <;>
        simp [parts, halpha, hhypothesis, hparallel]

/-- Each part that settings have in a document occurs once there, and has a value of its kind: a
numeral that is not too large, the name of a hypothesis, a truth value. -/
structure Admissible (fields : List (String × Json)) : Prop where
  once : ∀ name ∈ parts, (fields.map Prod.fst).count name ≤ 1
  alpha : ∀ v, ("alpha", v) ∈ fields → ∃ n : Numeral, v = .number n ∧ n.toFloat.isFinite = true
  hypothesis : ∀ v, ("hypothesis", v) ∈ fields → ∃ h : Hypothesis, v = ofString h.name
  parallel : ∀ v, ("parallel", v) ∈ fields → ∃ b, v = .bool b

/-- The settings have the values that stand in a document, and otherwise the standard ones. -/
structure HeldBy (s : Settings) (fields : List (String × Json)) : Prop where
  alpha : ∀ n : Numeral, ("alpha", .number n) ∈ fields →
    s.alpha = n.toFloat ∧ Binary64.Nearest n.rational (Binary64.value s.alpha)
  alpha_missing : "alpha" ∉ fields.map Prod.fst → s.alpha = standard.alpha
  hypothesis : ∀ h : Hypothesis, ("hypothesis", ofString h.name) ∈ fields → s.hypothesis = h
  hypothesis_missing : "hypothesis" ∉ fields.map Prod.fst → s.hypothesis = standard.hypothesis
  parallel : ∀ b, ("parallel", .bool b) ∈ fields → s.parallel = b
  parallel_missing : "parallel" ∉ fields.map Prod.fst → s.parallel = standard.parallel

lemma float?_number {n : Numeral} (h : n.toFloat.isFinite = true) :
    float? (.number n) = some n.toFloat := by
  rw [float?, if_pos h]

/-- A numeral that is read stands for its nearest number. -/
lemma nearest_of_float? {n : Numeral} {x : Float} (h : float? (.number n) = some x) :
    x = n.toFloat ∧ Binary64.Nearest n.rational (Binary64.value x) := by
  have hx := isFinite_of_float? h
  rw [float?] at h
  split_ifs at h
  obtain rfl := Option.some.inj h
  exact ⟨rfl, n.roundsTo_toFloat.nearest hx⟩

/-- Settings are taken from an object whose parts are what they should be. -/
lemma exists_heldBy (h : Admissible fields) :
    ∃ s, ofJson? (ofFields fields) = some s ∧ s.HeldBy fields := by
  have halpha : ∀ v, ("alpha", v) ∈ fields → ∃ x, float? v = some x := by
    intro v hv
    obtain ⟨n, rfl, hn⟩ := h.alpha v hv
    exact ⟨n.toFloat, float?_number hn⟩
  have hhypothesis : ∀ v, ("hypothesis", v) ∈ fields → ∃ x, Hypothesis.ofJson? v = some x := by
    intro v hv
    obtain ⟨x, rfl⟩ := h.hypothesis v hv
    exact ⟨x, Hypothesis.ofName?_name x⟩
  have hparallel : ∀ v, ("parallel", v) ∈ fields → ∃ x, bool? v = some x := by
    intro v hv
    obtain ⟨b, rfl⟩ := h.parallel v hv
    exact ⟨b, rfl⟩
  obtain ⟨alpha, hreadAlpha, hpresentAlpha, hmissingAlpha⟩ :=
    exists_partOf? alphaIfMissing float? (h.once "alpha" (by decide)) halpha
  obtain ⟨hypothesis, hreadHypothesis, hpresentHypothesis, hmissingHypothesis⟩ :=
    exists_partOf? hypothesisIfMissing Hypothesis.ofJson? (h.once "hypothesis" (by decide))
      hhypothesis
  obtain ⟨parallel, hreadParallel, hpresentParallel, hmissingParallel⟩ :=
    exists_partOf? parallelIfMissing bool? (h.once "parallel" (by decide)) hparallel
  refine ⟨⟨alpha, hypothesis, parallel⟩, ?_, ?_⟩
  · rw [ofJson?_ofFields, hreadAlpha, hreadHypothesis, hreadParallel]
    rfl
  · exact {
      alpha := fun n hn => nearest_of_float? (hpresentAlpha _ hn)
      alpha_missing := hmissingAlpha
      hypothesis := fun x hx => Option.some.inj
        ((hpresentHypothesis _ hx).symm.trans (Hypothesis.ofName?_name x))
      hypothesis_missing := hmissingHypothesis
      parallel := fun b hb => (Option.some.inj (hpresentParallel _ hb)).symm
      parallel_missing := hmissingParallel }

/-- A part that occurs twice is refused. -/
lemma ofJson?_ofFields_eq_none {name : String} (hname : name ∈ parts)
    (h : 2 ≤ (fields.map Prod.fst).count name) : ofJson? (ofFields fields) = none := by
  rw [ofJson?_ofFields]
  simp only [parts, List.mem_cons, List.not_mem_nil, or_false] at hname
  rcases hname with rfl | rfl | rfl
  · rw [partOf?_eq_none h]
    rfl
  · rw [partOf?_eq_none h]
    cases partOf? fields "alpha" alphaIfMissing float? <;> rfl
  · rw [partOf?_eq_none h]
    cases partOf? fields "alpha" alphaIfMissing float? <;>
      cases partOf? fields "hypothesis" hypothesisIfMissing Hypothesis.ofJson? <;> rfl

/-- Fields that do not name a part do not matter, and neither does the order. -/
lemma ofJson?_ofFields_perm
    (h : (fields.filter (·.1 ∈ parts)).Perm (fields'.filter (·.1 ∈ parts))) :
    ofJson? (ofFields fields) = ofJson? (ofFields fields') := by
  have hfilter : ∀ name ∈ parts, ∀ fields : List (String × Json),
      (fields.filter (·.1 ∈ parts)).filter (·.1 == name) = fields.filter (·.1 == name) := by
    intro name hname fields
    rw [List.filter_filter]
    refine List.filter_congr fun f _ => ?_
    rw [Bool.and_eq_left_iff_imp, beq_iff_eq, decide_eq_true_eq]
    exact fun heq => heq ▸ hname
  have hperm : ∀ name ∈ parts,
      (fields.filter (·.1 == name)).Perm (fields'.filter (·.1 == name)) := by
    intro name hname
    rw [← hfilter name hname fields, ← hfilter name hname fields']
    exact h.filter _
  rw [ofJson?_ofFields, ofJson?_ofFields, partOf?_perm (hperm "alpha" (by decide)),
    partOf?_perm (hperm "hypothesis" (by decide)), partOf?_perm (hperm "parallel" (by decide))]

/-! ### Settings in a text -/

/-- **Settings are read from a document of any form.**  In whatever way an object is spelled, its
parts are taken as settings if each occurs at most once and has a value of its kind; those that are
missing are the standard ones.  Two documents whose fields agree up to order, apart from fields with
other names, give the same result.  A part that occurs twice is refused.  A numeral is small enough
for a level if its magnitude is at most that of the largest finite number. -/
theorem ofText_spelled :
    (∀ (text : String) (fields : List (String × Json)), Spells text.toList (ofFields fields) →
      Admissible fields → ∃ s, ofText text = .ok s ∧ s.HeldBy fields) ∧
      (∀ (text text' : String) (fields fields' : List (String × Json)),
        Spells text.toList (ofFields fields) → Spells text'.toList (ofFields fields') →
        (fields.filter (·.1 ∈ parts)).Perm (fields'.filter (·.1 ∈ parts)) →
        ofText text = ofText text') ∧
      (∀ (text : String) (fields : List (String × Json)) (name : String),
        Spells text.toList (ofFields fields) → name ∈ parts →
        2 ≤ (fields.map Prod.fst).count name → ofText text = .error .unreadable) ∧
      ∀ n : Numeral, |n.rational| ≤ Binary64.safe → n.toFloat.isFinite = true := by
  refine ⟨fun text fields htext h => ?_, fun text text' fields fields' htext htext' h => ?_,
    fun text fields name htext hname h => ?_, fun n hn => (n.roundsTo_toFloat.isFinite hn).1⟩
  · obtain ⟨s, hs, hheld⟩ := exists_heldBy h
    refine ⟨s, ?_, hheld⟩
    rw [ofText, ofText?_of_spells htext, Option.bind_some, hs]
  · rw [ofText, ofText, ofText?_of_spells htext, ofText?_of_spells htext', Option.bind_some,
      Option.bind_some, ofJson?_ofFields_perm h]
  · rw [ofText, ofText?_of_spells htext, Option.bind_some, ofJson?_ofFields_eq_none hname h]

/-- A level after a field that settings do not have, the same fields in another order, and the level
twice. -/
theorem ofText_spelled_reordered :
    let level : Numeral := ⟨false, ['5'], [], some ⟨true, ['2']⟩⟩
    let note : Json := .array [.null, ofFields [("alpha", .bool true)]]
    let fields : List (String × Json) :=
      [("note", note), ("parallel", .bool true), ("alpha", .number level)]
    Admissible fields ∧
      (∃ s, ofText (ofFields fields).text = .ok s ∧ s.HeldBy fields) ∧
      ofText (ofFields fields).text = ofText (ofFields fields.reverse).text ∧
      ofText (ofFields (fields ++ [("alpha", .null)])).text = .error .unreadable ∧
      level.toFloat.isFinite = true := by
  intro level note fields
  obtain ⟨hheld, hsame, htwice, hrange⟩ := ofText_spelled
  have hlevel : level.toFloat.isFinite = true := by
    refine hrange level ?_
    change |((5 : ℕ) : ℚ) * 10 ^ (-2 : ℤ)| ≤ Binary64.safe
    refine le_trans ?_ (Binary64.two_zpow_le_safe (by norm_num : (0 : ℤ) ≤ 1023))
    norm_num
  have hwellFormed : level.WellFormed := by
    refine ⟨rfl, ?_, nofun, ?_, ?_⟩
    · exact List.forall_mem_singleton.2 (by decide)
    · rintro _ ⟨⟩
      exact List.cons_ne_nil _ _
    · rintro _ ⟨⟩
      exact List.forall_mem_singleton.2 (by decide)
  have hnote : note.Writable := by
    have hfields : (ofFields [("alpha", .bool true)]).Writable :=
      writable_ofFields (List.forall_mem_singleton.2 (.bool true))
    exact .array (by simpa using ⟨.null, hfields⟩)
  have hwritable : ∀ f ∈ fields, f.2.Writable := by
    simpa [fields] using ⟨hnote, .bool true, .number hwellFormed⟩
  have hadmissible : Admissible fields := by
    refine ⟨by decide, ?_, ?_, ?_⟩
    · simp [fields, hlevel]
    · simp [fields]
    · simp [fields]
  refine ⟨hadmissible, ?_, ?_, ?_, hlevel⟩
  · exact hheld _ fields (spells_text (writable_ofFields hwritable)) hadmissible
  · exact hsame _ _ fields fields.reverse (spells_text (writable_ofFields hwritable))
      (spells_text (writable_ofFields (by simpa using hwritable)))
      ((List.reverse_perm fields).symm.filter _)
  · have htwo : ∀ f ∈ fields ++ [("alpha", Json.null)], f.2.Writable :=
      List.forall_mem_append.2 ⟨hwritable, by simpa using .null⟩
    exact htwice _ _ "alpha" (spells_text (writable_ofFields htwo)) (by decide) (by decide)

end Settings

end LikelihoodRatio
