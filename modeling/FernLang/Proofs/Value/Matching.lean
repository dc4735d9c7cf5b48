import FernLang.Proofs.Scope.Dictionary

/-!
The meaning of patterns. A value is an instance of a pattern when it has the pattern's form and the
pattern's numbers and truth values where these stand. Every identifier of a pattern has a place, and a
match makes a dictionary of the values that stand at these places, taken from left to right. So a
name that stands twice is bound in its first turn, to the value at its last place, and a pattern
whose identifiers are all different gives back the value when they are filled in.
-/

namespace FernLang

namespace Bindings

variable {α : Type}

theorem update_concat (self other : Bindings α) (entry : String × α) :
    self.update (other ++ [entry]) = (self.update other).insert entry.1 entry.2 := by
  rw [update, List.foldl_append]
  rfl

theorem names_ofPairs (pairs : List (String × α)) :
    (ofPairs pairs).names = (pairs.map Prod.fst).eraseDups := by
  induction pairs using List.reverseRecOn with
  | nil => rfl
  | append_singleton pairs entry ih =>
      have step : ofPairs (pairs ++ [entry]) = (ofPairs pairs).insert entry.1 entry.2 :=
        update_concat [] pairs entry
      rw [step, insert_eq_assigned (nodup_ofPairs pairs), names_assigned, ih, List.map_append,
        List.eraseDups_append, List.map_singleton]
      by_cases known : entry.1 ∈ pairs.map Prod.fst
      · rw [if_pos (List.mem_eraseDups.2 known)]
        simp [List.removeAll, known]
      · rw [if_neg (mt List.mem_eraseDups.1 known)]
        simp [List.removeAll, known, List.eraseDups_cons]

theorem update_ofPairs {self : Bindings α} (single : self.names.Nodup) (pairs : List (String × α)) :
    self.update (ofPairs pairs) = self.update pairs := by
  induction pairs using List.reverseRecOn with
  | nil => rfl
  | append_singleton pairs entry ih =>
      have made : ofPairs (pairs ++ [entry]) = (ofPairs pairs).update [entry] :=
        update_concat [] pairs entry
      have lone : names [entry] = [entry.1] := rfl
      have once : (names [entry]).Nodup := lone ▸ List.nodup_singleton entry.1
      have rest := nodup_ofPairs pairs
      calc self.update (ofPairs (pairs ++ [entry]))
          = self.overridden ((ofPairs pairs).overridden [entry]) := by
            rw [made, update_eq_overridden rest once,
              update_eq_overridden single (nodup_overridden rest once)]
        _ = (self.overridden (ofPairs pairs)).overridden [entry] :=
            (overridden_assoc single rest [entry] once).symm
        _ = (self.update (ofPairs pairs)).update [entry] := by
            rw [update_eq_overridden (nodup_update single _) once, update_eq_overridden single rest]
        _ = self.update (pairs ++ [entry]) := by
            rw [ih, update_concat]
            rfl

theorem ofPairs_append (first second : List (String × α)) :
    ofPairs (first ++ second) = (ofPairs first).update (ofPairs second) := by
  rw [update_ofPairs (nodup_ofPairs first), ofPairs, update, List.foldl_append]
  rfl

end Bindings

/-- The value at a place in a value: the indices of the fields that lead to it. -/
def Value.at? : Value → List Nat → Option Value
  | value, [] => some value
  | .data _ fields, index :: place => fields[index]?.bind fun field => at? field place
  | _, _ :: _ => none

theorem Value.at?_field (tag : String) (before : List Value) (field : Value) (after : List Value)
    (place : List Nat) :
    (Value.data tag (before ++ field :: after)).at? (before.length :: place) = field.at? place := by
  rw [at?, List.getElem?_append_right (Nat.le_refl _), Nat.sub_self, List.getElem?_cons_zero,
    Option.bind_some]

namespace Pattern

inductive Instance : Pattern → Value → Prop
  | bool (value : Bool) : Instance (.bool value) (.bool value)
  | number (value : Int) : Instance (.number value) (.num value)
  | var (name : String) (value : Value) : Instance (.var name) value
  | data (tag : String) {fields : List Pattern} {values : List Value}
      (each : List.Forall₂ Instance fields values) : Instance (.data tag fields) (.data tag values)

mutual

/-- The identifiers of a pattern from left to right, each with its place. -/
def mentions : Pattern → List (String × List Nat)
  | .bool _ | .number _ => []
  | .var name => [(name, [])]
  | .data _ fields => mentionsFrom 0 fields

def mentionsFrom (index : Nat) : List Pattern → List (String × List Nat)
  | [] => []
  | pattern :: patterns =>
      (mentions pattern).map (Prod.map id (List.cons index)) ++ mentionsFrom (index + 1) patterns

end

mutual

/-- The value that a pattern stands for when its identifiers have values. -/
def fill? (bindings : Bindings Value) : Pattern → Option Value
  | .bool value => some (.bool value)
  | .number value => some (.num value)
  | .var name => bindings.get? name
  | .data tag fields => (fillAll? bindings fields).map (.data tag)

def fillAll? (bindings : Bindings Value) : List Pattern → Option (List Value)
  | [] => some []
  | pattern :: patterns => do
      return (← fill? bindings pattern) :: (← fillAll? bindings patterns)

end

/-- What a mention of an identifier adds to a match: the value at its place, unless it is `_`. -/
def pair? (value : Value) (mention : String × List Nat) : Option (String × Value) :=
  if mention.1 = "_" then none else (value.at? mention.2).map (Prod.mk mention.1)

theorem pair?_field (tag : String) (before : List Value) (field : Value) (after : List Value)
    (mention : String × List Nat) :
    pair? (.data tag (before ++ field :: after)) (mention.map id (List.cons before.length)) =
      pair? field mention := by
  unfold pair?
  rw [Prod.map_fst, Prod.map_snd, id, Value.at?_field]

theorem fst_of_pair? {value : Value} {mention : String × List Nat} {entry : String × Value}
    (made : pair? value mention = some entry) : entry.1 = mention.1 := by
  unfold pair? at made
  split at made
  · cases made
  · obtain ⟨found, _, rfl⟩ := Option.map_eq_some_iff.1 made
    rfl

mutual

theorem isSome_bindings? : ∀ (pattern : Pattern) (value : Value),
    (pattern.bindings? value).isSome = true ↔ pattern.Instance value
  | .bool wanted, value => by
      constructor
      · intro found
        cases value with
        | bool given =>
            rw [bindings?, Option.isSome_ite] at found
            exact found ▸ .bool wanted
        | _ => simp [bindings?] at found
      · rintro (_ | _)
        simp [bindings?]
  | .number wanted, value => by
      constructor
      · intro found
        cases value with
        | num given =>
            rw [bindings?, Option.isSome_ite] at found
            exact found ▸ .number wanted
        | _ => simp [bindings?] at found
      · rintro (_ | _)
        simp [bindings?]
  | .var name, value => by
      rw [bindings?]
      refine iff_of_true ?_ (.var name value)
      split <;> rfl
  | .data tag fields, value => by
      constructor
      · intro found
        cases value with
        | data given values =>
            rw [bindings?] at found
            split at found
            · rename_i same
              exact same ▸ .data given ((isSome_bindingsAll? fields values).1 found)
            · cases found
        | _ => simp [bindings?] at found
      · rintro (_ | _ | _ | ⟨_, each⟩)
        rw [bindings?, if_pos rfl]
        exact (isSome_bindingsAll? fields _).2 each

theorem isSome_bindingsAll? : ∀ (patterns : List Pattern) (values : List Value),
    (bindingsAll? patterns values).isSome = true ↔ List.Forall₂ Instance patterns values
  | [], [] => by simp [bindingsAll?]
  | [], value :: values => by simp [bindingsAll?]
  | pattern :: patterns, [] => by simp [bindingsAll?]
  | pattern :: patterns, value :: values => by
      rw [List.forall₂_cons, ← isSome_bindings? pattern value, ← isSome_bindingsAll? patterns values,
        bindingsAll?]
      cases pattern.bindings? value with
      | none => simp
      | some first =>
          cases bindingsAll? patterns values with
          | none => simp
          | some rest => simp

end

mutual

theorem eq_ofPairs_of_bindings? : ∀ {pattern : Pattern} {value : Value} {bindings : Bindings Value},
    pattern.bindings? value = some bindings →
      bindings = .ofPairs (pattern.mentions.filterMap (pair? value))
  | .bool _, .bool _, _, found => by
      simp only [bindings?, Option.ite_none_right_eq_some, Option.some.injEq] at found
      exact found.2.symm
  | .number _, .num _, _, found => by
      simp only [bindings?, Option.ite_none_right_eq_some, Option.some.injEq] at found
      exact found.2.symm
  | .var name, value, bindings, found => by
      by_cases blank : name = "_"
      · simp only [bindings?, if_pos blank, Option.some.injEq] at found
        simp [mentions, pair?, blank, ← found, Bindings.ofPairs, Bindings.update]
      · simp only [bindings?, if_neg blank, Option.some.injEq] at found
        simp [mentions, pair?, blank, ← found, Value.at?, Bindings.ofPairs, Bindings.update,
          Bindings.insert]
  | .data tag fields, .data other values, bindings, found => by
      by_cases same : other = tag
      · rw [bindings?, if_pos same] at found
        exact eq_ofPairs_of_bindingsAll? other [] found
      · simp [bindings?, same] at found

theorem eq_ofPairs_of_bindingsAll? (tag : String) : ∀ (before : List Value) {patterns : List Pattern}
    {values : List Value} {bindings : Bindings Value}, bindingsAll? patterns values = some bindings →
      bindings = .ofPairs ((mentionsFrom before.length patterns).filterMap
        (pair? (.data tag (before ++ values))))
  | before, [], [], bindings, found => by
      cases found
      rfl
  | before, pattern :: patterns, value :: values, bindings, found => by
      simp only [bindingsAll?, Option.bind_eq_bind, Option.bind_eq_some_iff] at found
      obtain ⟨first, here, rest, there, joined⟩ := found
      cases joined
      have early := eq_ofPairs_of_bindings? here
      have late := eq_ofPairs_of_bindingsAll? tag (before ++ [value]) there
      rw [List.append_assoc, List.singleton_append, List.length_append, List.length_singleton] at late
      have front : (pair? (.data tag (before ++ value :: values))) ∘
          Prod.map id (List.cons before.length) = pair? value :=
        funext fun mention => pair?_field tag before value values mention
      rw [mentionsFrom, List.filterMap_append, List.filterMap_map, front, Bindings.ofPairs_append,
        ← early, ← late]

end

mutual

theorem exists_at? : ∀ {pattern : Pattern} {value : Value}, pattern.Instance value →
    ∀ mention ∈ pattern.mentions, ∃ found, value.at? mention.2 = some found
  | .bool _, _, _, _, member => by cases member
  | .number _, _, _, _, member => by cases member
  | .var name, value, _, _, member => by
      rw [List.mem_singleton.1 member]
      exact ⟨value, by rw [Value.at?]⟩
  | .data tag fields, _, fits, mention, member => by
      cases fits with
      | data _ each => exact exists_at?_all tag [] each mention member

theorem exists_at?_all (tag : String) : ∀ (before : List Value) {patterns : List Pattern}
    {values : List Value}, List.Forall₂ Instance patterns values →
      ∀ mention ∈ mentionsFrom before.length patterns,
        ∃ found, (Value.data tag (before ++ values)).at? mention.2 = some found
  | _, [], _, _, _, member => by cases member
  | before, pattern :: patterns, value :: values, .cons here rest, mention, member => by
      rcases List.mem_append.1 member with early | late
      · obtain ⟨inner, inside, rfl⟩ := List.mem_map.1 early
        rw [Prod.map_snd, Value.at?_field]
        exact exists_at? here inner inside
      · have others := exists_at?_all tag (before ++ [value]) rest mention
        rw [List.append_assoc, List.singleton_append, List.length_append,
          List.length_singleton] at others
        exact others late

end

mutual

theorem fill?_eq_some {bindings : Bindings Value} : ∀ {pattern : Pattern} {value : Value},
    pattern.Instance value →
    (∀ mention ∈ pattern.mentions, bindings.get? mention.1 = value.at? mention.2) →
      pattern.fill? bindings = some value
  | .bool _, _, .bool _, _ => by rw [fill?]
  | .number _, _, .number _, _ => by rw [fill?]
  | .var name, value, _, agree => by
      have here := agree (name, []) (List.mem_singleton_self _)
      rw [fill?, here, Value.at?]
  | .data tag fields, _, .data _ each, agree => by
      rw [fill?, fillAll?_eq_some tag [] each agree, Option.map_some]

theorem fillAll?_eq_some {bindings : Bindings Value} (tag : String) : ∀ (before : List Value)
    {patterns : List Pattern} {values : List Value}, List.Forall₂ Instance patterns values →
    (∀ mention ∈ mentionsFrom before.length patterns,
      bindings.get? mention.1 = (Value.data tag (before ++ values)).at? mention.2) →
        fillAll? bindings patterns = some values
  | _, [], [], _, _ => by rw [fillAll?]
  | before, pattern :: patterns, value :: values, .cons here rest, agree => by
      have first : pattern.fill? bindings = some value := by
        apply fill?_eq_some here
        intro mention member
        have inside := agree (mention.map id (List.cons before.length))
          (List.mem_append_left _ (List.mem_map_of_mem member))
        rwa [Prod.map_fst, Prod.map_snd, id, Value.at?_field] at inside
      have others : fillAll? bindings patterns = some values := by
        apply fillAll?_eq_some tag (before ++ [value]) rest
        intro mention member
        rw [List.length_append, List.length_singleton] at member
        rw [List.append_assoc, List.singleton_append]
        exact agree mention (List.mem_append_right _ member)
      rw [fillAll?, first, others]
      rfl

end

section

variable {pattern : Pattern} {value : Value} {bindings : Bindings Value}

theorem map_fst_filterMap_pair? (fits : pattern.Instance value) :
    (pattern.mentions.filterMap (pair? value)).map Prod.fst =
      (pattern.mentions.map Prod.fst).filter (· ≠ "_") := by
  have present := exists_at? fits
  generalize pattern.mentions = mentions at present ⊢
  induction mentions with
  | nil => rfl
  | cons mention mentions ih =>
      have rest := ih fun other member => present other (List.mem_cons_of_mem _ member)
      obtain ⟨found, here⟩ := present mention List.mem_cons_self
      by_cases blank : mention.1 = "_"
      · simpa [pair?, blank] using rest
      · simpa [pair?, blank, here] using rest

variable (matched : pattern.bindings? value = some bindings)
include matched

theorem instance_of_bindings? : pattern.Instance value :=
  (isSome_bindings? pattern value).1 (by rw [matched, Option.isSome_some])

/-- Of the places of a name the last one says what it is bound to. -/
theorem get?_of_last_mention {before after : List (String × List Nat)} {name : String}
    {place : List Nat} (split : pattern.mentions = before ++ (name, place) :: after)
    (named : name ≠ "_") (last : name ∉ after.map Prod.fst) :
    ∃ found, value.at? place = some found ∧ bindings.get? name = some found := by
  have among : (name, place) ∈ pattern.mentions := by simp [split]
  obtain ⟨found, here⟩ := exists_at? (instance_of_bindings? matched) (name, place) among
  have own : pair? value (name, place) = some (name, found) := by
    rw [pair?, if_neg named, here, Option.map_some]
  have later : Bindings.get? name (after.filterMap (pair? value)) = none := by
    apply Bindings.get?_eq_none.2
    intro member
    obtain ⟨entry, made, same⟩ := List.mem_map.1 member
    obtain ⟨mention, inside, found⟩ := List.mem_filterMap.1 made
    apply last
    rw [← same, fst_of_pair? found]
    exact List.mem_map_of_mem inside
  refine ⟨found, here, ?_⟩
  rw [eq_ofPairs_of_bindings? matched, Bindings.get?_ofPairs, split, List.filterMap_append,
    List.filterMap_cons, own, Bindings.get?_append, Bindings.get?_cons, later, if_pos rfl]
  rfl

theorem get?_of_single_mention (single : (pattern.mentions.map Prod.fst).Nodup)
    (named : "_" ∉ pattern.mentions.map Prod.fst) :
    ∀ mention ∈ pattern.mentions, bindings.get? mention.1 = value.at? mention.2 := by
  intro mention member
  obtain ⟨before, after, split⟩ := List.append_of_mem member
  have proper : mention.1 ≠ "_" := fun blank => named (blank ▸ List.mem_map_of_mem member)
  have last : mention.1 ∉ after.map Prod.fst := by
    rw [split, List.map_append, List.map_cons] at single
    exact (List.nodup_cons.1 (List.nodup_append.1 single).2.1).1
  obtain ⟨found, here, bound⟩ := get?_of_last_mention matched split proper last
  rw [bound, here]

end

/-- The bindings that a match of a value with a pattern has to make: the identifiers other than `_` in
order of first mention, each with the value at its last place. -/
structure Binds (pattern : Pattern) (value : Value) (bindings : Bindings Value) : Prop where
  names : bindings.names = ((pattern.mentions.map Prod.fst).filter (· ≠ "_")).eraseDups
  values : ∀ before name place after, pattern.mentions = before ++ (name, place) :: after →
    name ≠ "_" → name ∉ after.map Prod.fst →
      ∃ found, value.at? place = some found ∧ (name, found) ∈ bindings

/-- A match succeeds on the instances of its pattern and makes the bindings that it has to make. When no
identifier stands twice and none is `_`, filling them in gives back the value. -/
theorem matching_meaning (pattern : Pattern) (value : Value) :
    ((pattern.bindings? value).isSome = true ↔ pattern.Instance value) ∧
      ∀ bindings, pattern.bindings? value = some bindings →
        pattern.Binds value bindings ∧
          ((pattern.mentions.map Prod.fst).Nodup → "_" ∉ pattern.mentions.map Prod.fst →
            pattern.fill? bindings = some value) := by
  refine ⟨isSome_bindings? pattern value, fun bindings matched => ⟨⟨?_, ?_⟩, ?_⟩⟩
  · rw [eq_ofPairs_of_bindings? matched, Bindings.names_ofPairs,
      map_fst_filterMap_pair? (instance_of_bindings? matched)]
  · intro before name place after split named last
    obtain ⟨found, here, bound⟩ := get?_of_last_mention matched split named last
    exact ⟨found, here, Bindings.mem_of_get? bound⟩
  · intro single named
    exact fill?_eq_some (instance_of_bindings? matched) (get?_of_single_mention matched single named)

/-- The name `x` stands in both fields of a pair, and `_` and a number beside its last place. -/
def repeated : Pattern := .data "Pair" [.var "x", .data "Triple" [.var "_", .var "x", .number 3]]

def spelledOut : Pattern := .data "Pair" [.var "x", .data "Triple" [.var "y", .var "z", .number 3]]

def nestedPair : Value := .data "Pair" [.num 1, .data "Triple" [.bool true, .data "Leaf" [], .num 3]]

theorem nestedPair_meaning :
    repeated.bindings? nestedPair = some [("x", .data "Leaf" [])] ∧
      repeated.Binds nestedPair [("x", .data "Leaf" [])] ∧
      spelledOut.bindings? nestedPair =
        some [("x", .num 1), ("y", .bool true), ("z", .data "Leaf" [])] ∧
      spelledOut.fill? [("x", .num 1), ("y", .bool true), ("z", .data "Leaf" [])] = some nestedPair := by
  have once : repeated.bindings? nestedPair = some [("x", .data "Leaf" [])] := by
    simp [repeated, nestedPair, bindings?, bindingsAll?, Bindings.update, Bindings.insert]
  have apart : spelledOut.bindings? nestedPair =
      some [("x", .num 1), ("y", .bool true), ("z", .data "Leaf" [])] := by
    simp [spelledOut, nestedPair, bindings?, bindingsAll?, Bindings.update, Bindings.insert]
  refine ⟨once, ((matching_meaning repeated nestedPair).2 _ once).1, apart, ?_⟩
  exact ((matching_meaning spelledOut nestedPair).2 _ apart).2 (by decide) (by decide)

end Pattern
end FernLang
