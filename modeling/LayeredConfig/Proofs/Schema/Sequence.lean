import LayeredConfig.Settings.Basic

set_option autoImplicit false

/-!
# Sequences of a fixed and of any length

A tuple wants one item for each of its schemas, and a list takes all items of an array. Both decode the
items from the front and fail with the first that does not decode. The length counts only after
that: a tuple drops no item and makes none up.
-/
namespace LayeredConfig.Schema

/-! ## Results one after the other -/

section Gather

variable {ε ε' α β : Type} {results : List (Except ε α)} {values : List α} {error : ε}

/-- All values, or the first failure. -/
def gather : List (Except ε α) → Except ε (List α)
  | [] => .ok []
  | .ok value :: rest => (gather rest).map (value :: ·)
  | .error error :: _ => .error error

theorem gather_map_ok (values : List α) : gather (values.map (.ok (ε := ε))) = .ok values := by
  induction values with
  | nil => rfl
  | cons value rest ih => rw [List.map_cons, gather, ih, Except.map]

theorem gather_append_error (values : List α) (error : ε) (after : List (Except ε α)) :
    gather (values.map .ok ++ .error error :: after) = .error error := by
  induction values with
  | nil => rfl
  | cons value rest ih => rw [List.map_cons, List.cons_append, gather, ih, Except.map]

/-- Either all results are values, or one is the first that is not. -/
theorem exists_values (results : List (Except ε α)) : ∃ values : List α,
    results = values.map .ok ∨ ∃ error after, results = values.map .ok ++ .error error :: after := by
  induction results with
  | nil => exact ⟨[], .inl rfl⟩
  | cons result rest ih =>
    cases result with
    | error error => exact ⟨[], .inr ⟨error, rest, rfl⟩⟩
    | ok value =>
      obtain ⟨values, rfl | ⟨error, after, rfl⟩⟩ := ih
      · exact ⟨value :: values, .inl rfl⟩
      · exact ⟨value :: values, .inr ⟨error, after, rfl⟩⟩

theorem gather_eq_ok_iff : gather results = .ok values ↔ results = values.map .ok := by
  constructor
  · intro h
    obtain ⟨front, rfl | ⟨error, after, rfl⟩⟩ := exists_values results
    · rw [gather_map_ok] at h
      rw [Except.ok.inj h]
    · rw [gather_append_error] at h
      cases h
  · rintro rfl
    exact gather_map_ok values

theorem gather_eq_error_iff : gather results = .error error ↔
    ∃ (values : List α) (after : List (Except ε α)),
      results = values.map .ok ++ .error error :: after := by
  constructor
  · intro h
    obtain ⟨front, rfl | ⟨first, after, rfl⟩⟩ := exists_values results
    · rw [gather_map_ok] at h
      cases h
    · rw [gather_append_error] at h
      obtain rfl := Except.error.inj h
      exact ⟨front, after, rfl⟩
  · rintro ⟨values, after, rfl⟩
    exact gather_append_error values error after

theorem gather_map_mapError (f : ε → ε') (results : List (Except ε α)) :
    gather (results.map (·.mapError f)) = (gather results).mapError f := by
  induction results with
  | nil => rfl
  | cons result rest ih =>
    cases result with
    | error error => rfl
    | ok value =>
      change (gather (rest.map (·.mapError f))).map (value :: ·) =
        ((gather rest).map (value :: ·)).mapError f
      rw [ih]
      cases gather rest <;> rfl

theorem bind_eq_ok_iff {result : Except ε α} {next : α → Except ε β} {last : β} :
    result.bind next = .ok last ↔ ∃ value, result = .ok value ∧ next value = .ok last := by
  cases result <;> simp [Except.bind]

theorem map_eq_ok_iff {result : Except ε α} {f : α → β} {last : β} :
    result.map f = .ok last ↔ ∃ value, result = .ok value ∧ f value = last := by
  cases result <;> simp [Except.map]

theorem mapError_eq_ok_iff {result : Except ε α} {f : ε → ε'} {value : α} :
    result.mapError f = .ok value ↔ result = .ok value := by
  cases result with
  | error error => exact iff_of_false nofun nofun
  | ok own => exact ⟨fun h => congrArg Except.ok (Except.ok.inj h),
      fun h => congrArg Except.ok (Except.ok.inj h)⟩

theorem mapError_eq_error_iff {result : Except ε α} {f : ε → ε'} {last : ε'} :
    result.mapError f = .error last ↔ ∃ error, result = .error error ∧ f error = last := by
  cases result with
  | error error =>
    constructor
    · exact fun h => ⟨error, rfl, Except.error.inj h⟩
    · rintro ⟨_, ⟨rfl⟩, rfl⟩
      rfl
  | ok own => exact iff_of_false nofun nofun

theorem bind_eq_error_iff {result : Except ε α} {next : α → Except ε β} :
    result.bind next = .error error ↔
      result = .error error ∨ ∃ value, result = .ok value ∧ next value = .error error := by
  cases result <;> simp [Except.bind]

end Gather

/-! ## Items one after the other -/

theorem decodeItems_eq (read : Node → Except DecodeError Value) (items : List Node) :
    decodeItems read items = gather (items.map read) := by
  induction items with
  | nil => rfl
  | cons item rest ih =>
    rw [decodeItems, ih, List.map_cons]
    cases read item <;> rfl

/-- What a sequence of another length should have been. -/
def wanted (expected : Expected) (size length : Nat) : Expected :=
  if size < length then .elementsInSequence size
  else
    match expected with
    | .tuple _ | .array _ => expected
    | _ => .withElements expected size

theorem invalidLength_wanted (expected : Expected) (size length : Nat) :
    DecodeError.invalidLength length (wanted expected size length) =
      if size < length then tooLong length size else tooShort expected length size := by
  unfold wanted
  split
  · rfl
  · cases expected <;> rfl

/-- The length counts only where all items up to the shorter end decode. -/
theorem decodeTuple_eq (reading : Reading) (expected : Expected) (size length : Nat)
    (schemas : List Schema) (items : List Node) :
    decodeTuple reading expected size length schemas items =
      (gather (List.zipWith (decode reading) schemas items)).bind fun values =>
        if items.length = schemas.length then .ok values
        else .error (if schemas.length < items.length then tooLong length size
          else tooShort expected length size) := by
  induction schemas generalizing items with
  | nil => cases items <;> rfl
  | cons schema schemas ih =>
    cases items with
    | nil => rfl
    | cons item rest =>
      change (schema.decode reading item).bind (fun value =>
        (decodeTuple reading expected size length schemas rest).map (value :: ·)) = _
      rw [ih, List.zipWith_cons_cons]
      cases schema.decode reading item with
      | error e => rfl
      | ok value =>
        rw [gather]
        cases gather (List.zipWith (decode reading) schemas rest) with
        | error e => rfl
        | ok values => by_cases h : rest.length = schemas.length <;> simp [Except.bind, Except.map, h]

/-- What the items decode to, each at the schema in its place. Items and schemas without a partner are
left out. -/
def outcomes (schemas : List Schema) (items : List Node) : List (Except ConfigError Value) :=
  List.zipWith (fun schema node => node.decode schema) schemas items

theorem gather_outcomes (schemas : List Schema) (items : List Node) :
    gather (outcomes schemas items) =
      (gather (List.zipWith (decode .parsed) schemas items)).mapError .undecodable := by
  rw [← gather_map_mapError, List.map_zipWith]
  rfl

theorem decode_array_tuple (expected : Expected) (schemas : List Schema) (items : List Node) :
    (Node.array items).decode (tuple expected schemas) =
      (gather (outcomes schemas items)).bind fun values =>
        if items.length = schemas.length then .ok (.list values)
        else .error (.undecodable (.invalidLength items.length
          (wanted expected schemas.length items.length))) := by
  change ((decodeTuple .parsed expected schemas.length items.length schemas items).map
    Value.list).mapError _ = _
  rw [decodeTuple_eq, gather_outcomes, invalidLength_wanted]
  cases gather (List.zipWith (decode .parsed) schemas items) with
  | error e => rfl
  | ok values =>
    change Except.mapError _ (Except.map _ (if _ then _ else _)) = if _ then _ else _
    by_cases h : items.length = schemas.length
    · rw [if_pos h, if_pos h]
      rfl
    · rw [if_neg h, if_neg h]
      rfl

theorem decode_array_list (item : Schema) (items : List Node) :
    (Node.array items).decode (list item) =
      (gather (items.map (·.decode item))).bind fun values => .ok (.list values) := by
  change ((decodeItems (item.decode .parsed) items).map Value.list).mapError _ = _
  have hitems : items.map (·.decode item) =
      (items.map (item.decode .parsed)).map (·.mapError .undecodable) := by
    rw [List.map_map]
    rfl
  rw [decodeItems_eq, hitems, gather_map_mapError]
  cases gather (items.map (item.decode .parsed)) <;> rfl

/-- An array decodes to a tuple exactly if it is as long as the tuple and each item decodes, and the
values stand in their order. Otherwise the first item that does not decode is the failure, and only
where there is none up to the shorter end, the length is. A list takes arrays of any length. -/
theorem decode_array_exact (items : List Node) :
    (∀ expected schemas,
      (∀ value, (Node.array items).decode (tuple expected schemas) = .ok value ↔
        items.length = schemas.length ∧
          ∃ values, outcomes schemas items = values.map .ok ∧ value = .list values) ∧
      ∀ error, (Node.array items).decode (tuple expected schemas) = .error error ↔
        (∃ (values : List Value) (after : List (Except ConfigError Value)),
          outcomes schemas items = values.map .ok ++ .error error :: after) ∨
        items.length ≠ schemas.length ∧
          (∃ values : List Value, outcomes schemas items = values.map .ok) ∧
          error = .undecodable (.invalidLength items.length
            (wanted expected schemas.length items.length))) ∧
    ∀ item,
      (∀ value, (Node.array items).decode (list item) = .ok value ↔
        ∃ values, items.map (·.decode item) = values.map .ok ∧ value = .list values) ∧
      ∀ error, (Node.array items).decode (list item) = .error error ↔
        ∃ (values : List Value) (after : List (Except ConfigError Value)),
          items.map (·.decode item) = values.map .ok ++ .error error :: after := by
  refine ⟨fun expected schemas => ⟨fun value => ?tupleValue, fun error => ?tupleError⟩,
    fun item => ⟨fun value => ?listValue, fun error => ?listError⟩⟩
  case tupleValue =>
    rw [decode_array_tuple, bind_eq_ok_iff]
    by_cases hlength : items.length = schemas.length
    · simp [gather_eq_ok_iff, hlength, @eq_comm _ value]
    · simp [hlength]
  case tupleError =>
    rw [decode_array_tuple, bind_eq_error_iff]
    by_cases hlength : items.length = schemas.length
    · simp [gather_eq_error_iff, hlength]
    · simp [gather_eq_error_iff, gather_eq_ok_iff, hlength, @eq_comm _ error]
  case listValue =>
    rw [decode_array_list, bind_eq_ok_iff]
    simp [gather_eq_ok_iff, @eq_comm _ value]
  case listError =>
    rw [decode_array_list, bind_eq_error_iff]
    simp [gather_eq_error_iff]

/-- An item behind the last one that a pair wants is counted, but not decoded. -/
example : (Node.array [.scalar "1", .scalar "x", .null]).decode (pair (integer ⟨true, 32⟩) text) =
    .error (.undecodable (.invalidLength 3 (.elementsInSequence 2))) :=
  rfl

end LayeredConfig.Schema
