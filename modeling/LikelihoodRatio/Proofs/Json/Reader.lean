/-
# Values are read

A reader that waits for a value reads a text that spells one, and then is where it would be with the
value complete (`reads`), whatever is open around it and whatever the value is.  So every text that
spells a value is read as this value (`ofText?_of_spells`), and the text that is written for a value
is read back (`ofText?_text`).
-/
import LikelihoodRatio.Json.Reader
import LikelihoodRatio.Proofs.Json.Scanners

namespace LikelihoodRatio.Json

variable {cs rest : List Char} {t : Token} {s : State} {around : List Frame}

/-! ### Reading a text token by token -/

/-- No token starts with a blank. -/
lemma isBlank_eq_false_of_token? {c : Char} (h : token? (c :: cs) = some (t, rest)) :
    isBlank c = false := by
  by_contra hblank
  rw [Bool.not_eq_false] at hblank
  simp only [isBlank, Bool.or_eq_true, beq_iff_eq] at hblank
  rcases hblank with ((rfl | rfl) | rfl) | rfl <;> cases h

/-- What follows the blanks is a token and further tokens. -/
lemma tokens_eq (cs : List Char) :
    tokens cs =
      if cs.dropWhile isBlank = [] then some []
      else (token? (cs.dropWhile isBlank)).bind fun p => (tokens p.2).map (p.1 :: ·) := by
  rw [tokens]
  split_ifs
  · rfl
  · split <;> simp [*]

lemma tokens_blank_append {blanks : List Char} (h : Blank blanks) (cs : List Char) :
    tokens (blanks ++ cs) = tokens cs := by
  rw [tokens_eq, List.dropWhile_append_of_pos h, ← tokens_eq]

lemma tokens_of_token? (h : token? cs = some (t, rest)) :
    tokens cs = (tokens rest).map (t :: ·) := by
  cases cs with
  | nil => cases h
  | cons c cs =>
    have hdrop : (c :: cs).dropWhile isBlank = c :: cs :=
      List.dropWhile_cons_of_neg (by simp [isBlank_eq_false_of_token? h])
    rw [tokens_eq, hdrop, if_neg (List.cons_ne_nil c cs), h, Option.bind_some]

/-- The state of a reader after a text, if it can read it. -/
def State.read? (s : State) (cs : List Char) : Option State :=
  (tokens cs).bind (·.foldlM State.step? s)

lemma read?_nil (s : State) : s.read? [] = some s := by
  rw [State.read?, tokens]
  rfl

lemma read?_blank_append {blanks : List Char} (h : Blank blanks) (s : State) (cs : List Char) :
    s.read? (blanks ++ cs) = s.read? cs := by
  rw [State.read?, tokens_blank_append h, State.read?]

lemma read?_of_token? (h : token? cs = some (t, rest)) (s : State) :
    s.read? cs = (s.step? t).bind (·.read? rest) := by
  rw [State.read?, tokens_of_token? h, Option.bind_map]
  cases htokens : tokens rest with
  | none => cases s.step? t <;> simp [State.read?, htokens]
  | some ts => cases hstep : s.step? t <;> simp [State.read?, htokens, hstep]

lemma ofText?_eq (text : String) :
    ofText? text = ((State.value []).read? text.toList).bind State.result? := by
  rw [ofText?, State.read?, Option.bind_assoc]
  rfl

/-! ### Where a value may stand -/

/-- A value may start, within what is around it. -/
def State.Expects (s : State) (around : List Frame) : Prop :=
  ∀ t, t ≠ .rightBracket → s.step? t = State.start? around t

lemma expects_value (around : List Frame) : (State.value around).Expects around := fun _ _ => rfl

lemma expects_firstItem (around : List Frame) :
    (State.firstItem around).Expects (.array [] :: around) := by
  intro t ht
  cases t with
  | rightBracket => exact absurd rfl ht
  | _ => rfl

lemma State.Expects.read?_leftBracket (hs : s.Expects around) (cs : List Char) :
    s.read? ('[' :: cs) = (State.firstItem around).read? cs := by
  rw [read?_of_token? rfl, hs .leftBracket nofun]
  rfl

lemma State.Expects.read?_leftBrace (hs : s.Expects around) (cs : List Char) :
    s.read? ('{' :: cs) = (State.firstName around).read? cs := by
  rw [read?_of_token? rfl, hs .leftBrace nofun]
  rfl

/-- The name of a field may start. -/
def State.ExpectsName (s : State) (fields : List (Option String × Json)) (around : List Frame) :
    Prop :=
  ∀ name, s.step? (.string name) = some (.colon fields name around)

lemma expectsName_firstName (around : List Frame) :
    (State.firstName around).ExpectsName [] around := fun _ => rfl

lemma expectsName_name (fields : List (Option String × Json)) (around : List Frame) :
    (State.name fields around).ExpectsName fields around := fun _ => rfl

/-! ### Texts of one value or one token -/

/-- A text is read as a value wherever one may stand. -/
def Reads (cs : List Char) (j : Json) : Prop :=
  ∀ (s : State) (around : List Frame) (rest : List Char), s.Expects around → Delimited rest →
    s.read? (cs ++ rest) = (State.complete j around).read? rest

/-- A text is one token for a reader that comes to it, and then nothing. -/
def ReadsToken (cs : List Char) (t : Token) : Prop :=
  ∀ (s : State) (rest : List Char), s.read? (cs ++ rest) = (s.step? t).bind (·.read? rest)

/-- Whatever a reader waits for, a spelled string is a single token. -/
lemma readsToken_string {text : Option String} (h : Spells cs (.string text)) :
    ReadsToken cs (.string text) := by
  generalize hj : Json.string text = j at h
  induction h with
  | string hletters =>
    obtain rfl := Json.string.inj hj
    intro s rest
    rw [List.cons_append, List.append_assoc]
    exact read?_of_token? (token?_string hletters rest) s
  | spaced hbefore hafter _ ih =>
    intro s rest
    rw [List.append_assoc, List.append_assoc, read?_blank_append hbefore, ih hj]
    simp only [read?_blank_append hafter]
  | _ => cases hj

/-! ### Arrays and objects -/

lemma read?_items {items : List (List Char × Json)} (h : ∀ i ∈ items, Reads i.1 i.2)
    (hne : items ≠ []) {read : List Json} (hs : s.Expects (.array read :: around))
    (rest : List Char) :
    s.read? (commaSeparated (items.map Prod.fst) ++ ']' :: rest) =
      (State.complete (.array (read.reverse ++ items.map Prod.snd)) around).read? rest := by
  induction items generalizing read s with
  | nil => exact absurd rfl hne
  | cons i items ih =>
    obtain ⟨text, v⟩ := i
    rw [List.forall_mem_cons] at h
    cases items with
    | nil =>
      rw [List.map_cons, List.map_nil, commaSeparated_singleton,
        h.1 s _ _ hs (delimited_cons (.inr (.inl rfl)) rest), read?_of_token? rfl,
        List.map_cons, List.map_nil, ← List.reverse_cons]
      rfl
    | cons i items =>
      have hrest := ih h.2 (List.cons_ne_nil i items) (expects_value (.array (v :: read) :: around))
      rw [List.reverse_cons, List.append_assoc, List.singleton_append] at hrest
      rw [List.map_cons, List.map_cons, commaSeparated_cons_cons, List.append_assoc,
        List.cons_append, h.1 s _ _ hs (delimited_cons (.inl rfl) _), read?_of_token? rfl]
      exact hrest

/-- A field is read up to what follows its value. -/
lemma read?_field {f : SpelledField} (hname : ReadsToken f.nameText (.string (some f.name)))
    (hvalue : Reads f.valueText f.value) {read : List (Option String × Json)}
    (hs : s.ExpectsName read around) (hrest : Delimited rest) :
    s.read? (f.text ++ rest) =
      (State.complete f.value (.object read (some f.name) :: around)).read? rest := by
  rw [SpelledField.text, List.append_assoc, List.cons_append, hname, hs]
  change (State.colon read (some f.name) around).read? (':' :: (f.valueText ++ rest)) = _
  rw [read?_of_token? rfl]
  exact hvalue _ _ _ (expects_value _) hrest

lemma read?_fields {fields : List SpelledField}
    (hname : ∀ f ∈ fields, ReadsToken f.nameText (.string (some f.name)))
    (hvalue : ∀ f ∈ fields, Reads f.valueText f.value) (hne : fields ≠ [])
    {read : List (Option String × Json)} (hs : s.ExpectsName read around) (rest : List Char) :
    s.read? (commaSeparated (fields.map SpelledField.text) ++ '}' :: rest) =
      (State.complete (.object (read.reverse ++ fields.map fun f => (some f.name, f.value)))
        around).read? rest := by
  induction fields generalizing read s with
  | nil => exact absurd rfl hne
  | cons f fields ih =>
    rw [List.forall_mem_cons] at hname hvalue
    cases fields with
    | nil =>
      rw [List.map_cons, List.map_nil, commaSeparated_singleton,
        read?_field hname.1 hvalue.1 hs (delimited_cons (.inr (.inr rfl)) rest),
        read?_of_token? rfl, List.map_cons, List.map_nil, ← List.reverse_cons]
      rfl
    | cons g fields =>
      have hrest := ih hname.2 hvalue.2 (List.cons_ne_nil g fields)
        (expectsName_name ((some f.name, f.value) :: read) around)
      rw [List.reverse_cons, List.append_assoc, List.singleton_append] at hrest
      rw [List.map_cons, List.map_cons, commaSeparated_cons_cons, List.append_assoc,
        List.cons_append, read?_field hname.1 hvalue.1 hs (delimited_cons (.inl rfl) _),
        read?_of_token? rfl]
      exact hrest

/-! ### Values -/

/-- A value that is one token. -/
lemma reads_of_token? (h : ∀ rest, Delimited rest → token? (cs ++ rest) = some (t, rest))
    {j : Json} (ht : t ≠ .rightBracket)
    (hstart : ∀ around, State.start? around t = some (.complete j around)) : Reads cs j := by
  intro s around rest hs hrest
  rw [read?_of_token? (h rest hrest), hs t ht, hstart]
  rfl

/-- **A text that spells a value is read as this value wherever one may stand.** -/
theorem reads {j : Json} (h : Spells cs j) : Reads cs j := by
  induction h with
  | null => exact reads_of_token? (t := .null) (fun _ _ => rfl) nofun fun _ => rfl
  | true => exact reads_of_token? (t := .bool true) (fun _ _ => rfl) nofun fun _ => rfl
  | false => exact reads_of_token? (t := .bool false) (fun _ _ => rfl) nofun fun _ => rfl
  | number h => exact reads_of_token? (fun _ => token?_number h) nofun fun _ => rfl
  | string h =>
    intro s around rest hs _
    rw [readsToken_string (.string h), hs (.string _) nofun]
    rfl
  | emptyArray hblanks =>
    intro s around rest hs _
    rw [List.cons_append, List.append_assoc, hs.read?_leftBracket, read?_blank_append hblanks,
      List.singleton_append, read?_of_token? rfl]
    rfl
  | array hne _ ih =>
    intro s around rest hs _
    rw [List.cons_append, List.append_assoc, hs.read?_leftBracket]
    exact read?_items ih hne (expects_firstItem around) rest
  | emptyObject hblanks =>
    intro s around rest hs _
    rw [List.cons_append, List.append_assoc, hs.read?_leftBrace, read?_blank_append hblanks,
      List.singleton_append, read?_of_token? rfl]
    rfl
  | object hne hname _ _ ih =>
    intro s around rest hs _
    rw [List.cons_append, List.append_assoc, hs.read?_leftBrace, ofFields, List.map_map]
    exact read?_fields (fun f hf => readsToken_string (hname f hf)) ih hne
      (expectsName_firstName around) rest
  | spaced hbefore hafter _ ih =>
    intro s around rest hs hrest
    rw [List.append_assoc, List.append_assoc, read?_blank_append hbefore,
      ih s around _ hs (hrest.blank_append hafter), read?_blank_append hafter]

/-- **A text that spells a value is read as this value.** -/
theorem ofText?_of_spells {text : String} {j : Json} (h : Spells text.toList j) :
    ofText? text = some j := by
  have hread := reads h _ _ [] (expects_value []) delimited_nil
  rw [List.append_nil, read?_nil] at hread
  rw [ofText?_eq, hread]
  rfl

/-- **The text of a value is read back.** -/
theorem ofText?_text {j : Json} (h : Writable j) : ofText? j.text = some j :=
  ofText?_of_spells (spells_text h)

end LikelihoodRatio.Json
