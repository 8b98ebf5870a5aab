import LayeredConfig.Environment.VariableName
import LayeredConfig.Text.Fold

set_option autoImplicit false

/-!
# What the name of a derived variable tells

The name joins the prefix and the runs of ASCII letters and digits of the path. The runs can be read
back from what stands behind the prefix, in upper case, so two paths have one name under a prefix
exactly if their runs agree without ASCII case.
-/
namespace LayeredConfig.Environment

variable {text run : List Char} {c : Char}

/-! ## Runs of letters and digits -/

/-- The maximal runs of ASCII letters and digits, in order. -/
def runs (text : List Char) : List (List Char) :=
  (text.splitOnP (!Char.isAlphanum ·)).filter (· ≠ [])

def IsRun (run : List Char) : Prop := run ≠ [] ∧ ∀ c ∈ run, c.isAlphanum

/-- A text consists of letters and digits, or these are cut by another character with a text behind
it. -/
@[elab_as_elim]
theorem cut_induction {motive : List Char → Prop}
    (whole : ∀ run, (∀ c ∈ run, c.isAlphanum) → motive run)
    (cut : ∀ run c rest, (∀ d ∈ run, d.isAlphanum) → c.isAlphanum = false → motive rest →
      motive (run ++ c :: rest))
    (text : List Char) : motive text := by
  -- The letters and digits that were met since the last cut stand in front of the rest.
  have hbehind : ∀ run, (∀ c ∈ run, c.isAlphanum) → motive (run ++ text) := by
    induction text with
    | nil =>
      intro run hrun
      rw [List.append_nil]
      exact whole run hrun
    | cons c rest ih =>
      intro run hrun
      cases hc : c.isAlphanum with
      | true =>
        have hlonger : ∀ d ∈ run ++ [c], d.isAlphanum :=
          List.forall_mem_append.2 ⟨hrun, by simpa using hc⟩
        simpa using ih (run ++ [c]) hlonger
      | false => exact cut run c rest hrun hc (ih [] (by simp))
  exact hbehind [] (by simp)

theorem runs_of_forall (h : ∀ c ∈ run, c.isAlphanum) : runs run = [run].filter (· ≠ []) := by
  have hwhole : run.splitOnP (!Char.isAlphanum ·) = [run] :=
    List.splitOnP_eq_singleton fun c hc => by simp [h c hc]
  rw [runs, hwhole]

theorem IsRun.runs_eq (h : IsRun run) : runs run = [run] := by
  simp [runs_of_forall h.2, h.1]

theorem runs_append_cons (hc : c.isAlphanum = false) (front back : List Char) :
    runs (front ++ c :: back) = runs front ++ runs back := by
  unfold runs
  rw [List.splitOnP_append_cons front back (by simp [hc]), List.filter_append]

theorem isRun_of_mem (h : run ∈ runs text) : IsRun run := by
  induction text using cut_induction with
  | whole letters hletters =>
    rw [runs_of_forall hletters, List.mem_filter, List.mem_singleton] at h
    obtain ⟨rfl, hne⟩ := h
    exact ⟨by simpa using hne, hletters⟩
  | cut letters c rest hletters hc ih =>
    rw [runs_append_cons hc, List.mem_append, runs_of_forall hletters, List.mem_filter,
      List.mem_singleton] at h
    rcases h with ⟨rfl, hne⟩ | h
    · exact ⟨by simpa using hne, hletters⟩
    · exact ih h

/-! ## Upper case -/

def upper (pieces : List (List Char)) : List (List Char) := pieces.map (·.map Char.toUpper)

/-- Letters and digits by their numbers, which turn case into arithmetic. -/
theorem isAlphanum_iff {c : Char} : c.isAlphanum ↔ (65 ≤ c.toNat ∧ c.toNat ≤ 90) ∨
    (97 ≤ c.toNat ∧ c.toNat ≤ 122) ∨ (48 ≤ c.toNat ∧ c.toNat ≤ 57) := by
  rw [← Char.toNat_val]
  delta Char.isAlphanum Char.isAlpha Char.isUpper Char.isLower Char.isDigit
  grind [UInt32.le_iff_toNat_le]

theorem toNat_toUpper (c : Char) :
    c.toUpper.toNat = if 97 ≤ c.toNat ∧ c.toNat ≤ 122 then c.toNat - 32 else c.toNat := by
  rw [← Char.toNat_val, ← Char.toNat_val]
  delta Char.toUpper
  split <;> grind [UInt32.toNat_add, UInt32.le_iff_toNat_le]

theorem isAlphanum_toUpper (c : Char) : c.toUpper.isAlphanum = c.isAlphanum := by
  grind [isAlphanum_iff, toNat_toUpper]

theorem forall_isAlphanum_map (h : ∀ c ∈ run, c.isAlphanum) :
    ∀ c ∈ run.map Char.toUpper, c.isAlphanum := by
  simpa [isAlphanum_toUpper] using h

theorem isRun_of_mem_upper (h : run ∈ upper (runs text)) : IsRun run := by
  obtain ⟨own, hown, rfl⟩ := List.mem_map.1 h
  obtain ⟨hne, hletters⟩ := isRun_of_mem hown
  exact ⟨by simpa using hne, forall_isAlphanum_map hletters⟩

theorem runs_map_toUpper (text : List Char) : runs (text.map Char.toUpper) = upper (runs text) := by
  induction text using cut_induction with
  | whole run hrun =>
    rw [runs_of_forall hrun, runs_of_forall (forall_isAlphanum_map hrun)]
    cases run <;> rfl
  | cut run c rest hrun hc ih =>
    have hupper : c.toUpper.isAlphanum = false := by rw [isAlphanum_toUpper, hc]
    rw [List.map_append, List.map_cons, runs_append_cons hupper, runs_append_cons hc, ih,
      runs_of_forall hrun, runs_of_forall (forall_isAlphanum_map hrun)]
    cases run <;> simp [upper]

/-! ## The walk over the path -/

/-- Every piece behind an underscore. -/
def marked (pieces : List (List Char)) : List Char := pieces.flatMap ('_' :: ·)

theorem intercalate_cons (piece : List Char) (rest : List (List Char)) :
    ['_'].intercalate (piece :: rest) = piece ++ marked rest := by
  induction rest generalizing piece with
  | nil => simp [marked]
  | cons next rest ih =>
    rw [List.intercalate_cons_cons, ih next]
    simp [marked]

theorem nameChars_of_cut (hc : c.isAlphanum = false) (started pending : Bool)
    (rest : List Char) : nameChars started pending (c :: rest) = nameChars started started rest :=
  if_neg (Bool.eq_false_iff.1 hc)

theorem nameChars_of_letter (hc : c.isAlphanum) (started pending : Bool) (rest : List Char) :
    nameChars started pending (c :: rest) =
      (if pending then ['_', c.toUpper] else [c.toUpper]) ++ nameChars true false rest :=
  if_pos hc

theorem nameChars_inside (h : ∀ c ∈ run, c.isAlphanum) (rest : List Char) :
    nameChars true false (run ++ rest) = run.map Char.toUpper ++ nameChars true false rest := by
  induction run with
  | nil => rfl
  | cons c run ih =>
    obtain ⟨hc, hrun⟩ := List.forall_mem_cons.1 h
    rw [List.cons_append, nameChars_of_letter hc, ih hrun]
    rfl

theorem nameChars_due (h : ∀ c ∈ run, c.isAlphanum) (rest : List Char) :
    nameChars true true (run ++ rest) =
      marked (upper (runs run)) ++ nameChars true run.isEmpty rest := by
  rw [runs_of_forall h]
  cases run with
  | nil => rfl
  | cons c run =>
    obtain ⟨hc, hrun⟩ := List.forall_mem_cons.1 h
    rw [List.cons_append, nameChars_of_letter hc, nameChars_inside hrun]
    simp [marked, upper]

theorem nameChars_started (text : List Char) :
    nameChars true true text = marked (upper (runs text)) := by
  induction text using cut_induction with
  | whole run hrun => simpa [nameChars] using nameChars_due hrun []
  | cut run c rest hrun hc ih =>
    rw [nameChars_due hrun, nameChars_of_cut hc, ih, runs_append_cons hc]
    simp [marked, upper]

theorem nameChars_unstarted (text : List Char) :
    nameChars false false text = ['_'].intercalate (upper (runs text)) := by
  -- At the start of a name the first underscore is left out, and nothing else.
  have htail : nameChars false false text = (nameChars true true text).tail := by
    induction text with
    | nil => rfl
    | cons c rest ih =>
      cases hc : c.isAlphanum with
      | true => rw [nameChars_of_letter hc, nameChars_of_letter hc]; rfl
      | false => rw [nameChars_of_cut hc, nameChars_of_cut hc, ih]
  rw [htail, nameChars_started]
  cases upper (runs text) with
  | nil => rfl
  | cons run rest => rw [intercalate_cons]; rfl

/-! ## Reading the runs back -/

theorem runs_append_marked {pieces : List (List Char)} (h : ∀ piece ∈ pieces, IsRun piece)
    (front : List Char) : runs (front ++ marked pieces) = runs front ++ pieces := by
  induction pieces generalizing front with
  | nil => simp [marked]
  | cons piece rest ih =>
    obtain ⟨hpiece, hrest⟩ := List.forall_mem_cons.1 h
    have hmark : front ++ marked (piece :: rest) = front ++ '_' :: (piece ++ marked rest) := by
      simp [marked]
    rw [hmark, runs_append_cons (by decide), ih hrest piece, hpiece.runs_eq]
    rfl

theorem runs_nameChars (started : Bool) (text : List Char) :
    runs (nameChars started started text) = upper (runs text) := by
  have hruns : ∀ piece ∈ upper (runs text), IsRun piece := fun _ hpiece => isRun_of_mem_upper hpiece
  cases started with
  | true =>
    rw [nameChars_started]
    exact runs_append_marked hruns []
  | false =>
    rw [nameChars_unstarted]
    cases hpieces : upper (runs text) with
    | nil => rfl
    | cons piece rest =>
      rw [hpieces] at hruns
      obtain ⟨hpiece, hrest⟩ := List.forall_mem_cons.1 hruns
      rw [intercalate_cons, runs_append_marked hrest, hpiece.runs_eq]
      rfl

/-! ## Names as texts -/

/-- The maximal runs of ASCII letters and digits of a text, as texts. -/
def words (text : String) : List String := (runs text.toList).map String.ofList

theorem map_toUpper_words (text : String) :
    (words text).map String.toUpper = (upper (runs text.toList)).map String.ofList := by
  simp [words, upper, String.toUpper, ← String.toList_inj, Function.comp_def]

/-- What is joined to the name: the prefix, unless it is empty, and the words of the path. -/
def parts (pre path : String) : List String :=
  (if pre = "" then [] else [pre]) ++ (words path).map String.toUpper

theorem ne_empty_of_mem_parts {pre path part : String} (h : part ∈ parts pre path) :
    part ≠ "" := by
  rcases List.mem_append.1 h with hpre | hword
  · split at hpre
    next => simp at hpre
    next hne =>
      obtain rfl : part = pre := by simpa using hpre
      exact hne
  · rw [map_toUpper_words] at hword
    obtain ⟨run, hrun, rfl⟩ := List.mem_map.1 hword
    exact fun hempty => (isRun_of_mem_upper hrun).1 (String.ofList_eq_empty_iff.1 hempty)

theorem variableName_eq (pre path : String) :
    variableName pre path = "_".intercalate (parts pre path) := by
  have htexts : ((words path).map String.toUpper).map String.toList =
      upper (runs path.toList) := by
    simp [map_toUpper_words, Function.comp_def]
  rw [← String.toList_inj, String.toList_intercalate, parts, List.map_append, htexts]
  by_cases hpre : pre = ""
  · have hempty : pre.isEmpty = true := String.isEmpty_iff.2 hpre
    rw [variableName, hempty, if_pos hpre, hpre]
    simp [nameChars_unstarted]
  · have hne : pre.isEmpty = false := by simpa using hpre
    rw [variableName, hne, if_neg hpre]
    simp [nameChars_started, intercalate_cons]

/-- What was joined already may be joined as one part. -/
theorem intercalate_joined {front : List String} (h : ∀ part ∈ front, part ≠ "")
    (back : List String) :
    "_".intercalate ((if "_".intercalate front = "" then [] else ["_".intercalate front]) ++ back) =
      "_".intercalate (front ++ back) := by
  cases front with
  | nil => simp
  | cons part rest =>
    have hpart : part ≠ "" := h part List.mem_cons_self
    have hne : "_".intercalate (part :: rest) ≠ "" := by
      cases rest <;> simp [String.intercalate_cons_cons, hpart]
    rw [if_neg hne]
    cases back with
    | nil => simp
    | cons next more =>
      rw [String.intercalate_append_of_ne_nil (List.cons_ne_nil _ _) (List.cons_ne_nil _ _),
        String.intercalate_append_of_ne_nil (List.cons_ne_nil _ _) (List.cons_ne_nil _ _),
        String.intercalate_singleton]

theorem words_append (hc : c.isAlphanum = false) (p q : String) :
    words (p ++ (String.singleton c ++ q)) = words p ++ words q := by
  simp [words, runs_append_cons hc]

theorem variableName_append (hc : c.isAlphanum = false) (pre p q : String) :
    variableName pre (p ++ String.singleton c ++ q) = variableName (variableName pre p) q := by
  have hparts : parts pre (p ++ String.singleton c ++ q) =
      parts pre p ++ (words q).map String.toUpper := by
    rw [parts, String.append_assoc, words_append hc, List.map_append, ← List.append_assoc, parts]
  rw [variableName_eq (variableName pre p), parts, variableName_eq pre p,
    intercalate_joined fun part hpart => ne_empty_of_mem_parts hpart, variableName_eq, hparts]

/-- A derived name joins the prefix, unless it is empty, and the runs of letters and digits of the
path in upper case. So the name of what stands before a cut of the path may serve as the prefix of
what stands behind it. -/
theorem variableName_joins_runs :
    (∀ pre path, variableName pre path =
      "_".intercalate ((if pre = "" then [] else [pre]) ++ (words path).map String.toUpper)) ∧
    ∀ pre p q c, c.isAlphanum = false →
      variableName pre (p ++ String.singleton c ++ q) = variableName (variableName pre p) q :=
  ⟨variableName_eq, fun pre p q _ hc => variableName_append hc pre p q⟩

/-- Before the cut there is nothing to write. -/
theorem variableName_joins_runs_unstarted : 'é'.isAlphanum = false ∧
    variableName "" "..éa[0].B-" = variableName (variableName "" "..") "a[0].B-" :=
  ⟨by decide, variableName_joins_runs.2 "" ".." "a[0].B-" 'é' (by decide)⟩

/-! ## Equal names -/

theorem toNat_toLower (c : Char) :
    c.toLower.toNat = if 65 ≤ c.toNat ∧ c.toNat ≤ 90 then c.toNat + 32 else c.toNat := by
  rw [← Char.toNat_val, ← Char.toNat_val]
  delta Char.toLower
  split <;> grind [UInt32.toNat_add, UInt32.le_iff_toNat_le]

theorem toLower_toUpper (c : Char) : c.toUpper.toLower = c.toLower := by
  rw [← Char.toNat_inj]
  grind [toNat_toLower, toNat_toUpper]

theorem toUpper_toLower (c : Char) : c.toLower.toUpper = c.toUpper := by
  rw [← Char.toNat_inj]
  grind [toNat_toLower, toNat_toUpper]

theorem lowerAscii_toUpper (text : String) :
    Text.lowerAscii text.toUpper = Text.lowerAscii text := by
  simp only [Text.lowerAscii, String.toUpper, String.toList_map, List.map_map, Function.comp_def,
    toLower_toUpper]

theorem ofList_map_toUpper_lowerAscii (text : String) :
    String.ofList ((Text.lowerAscii text).map Char.toUpper) = text.toUpper := by
  simp only [Text.lowerAscii, String.toUpper, ← String.toList_inj, String.toList_ofList,
    String.toList_map, List.map_map, Function.comp_def, toUpper_toLower]

theorem map_toUpper_eq_iff {first second : List String} :
    first.map String.toUpper = second.map String.toUpper ↔
      first.map Text.lowerAscii = second.map Text.lowerAscii := by
  constructor
  · intro h
    have hlower := congrArg (List.map Text.lowerAscii) h
    simpa [Function.comp_def, lowerAscii_toUpper] using hlower
  · intro h
    have hupper := congrArg (List.map fun cs => String.ofList (cs.map Char.toUpper)) h
    simpa [Function.comp_def, ofList_map_toUpper_lowerAscii] using hupper

theorem variableName_eq_iff {pre p q : String} : variableName pre p = variableName pre q ↔
    (words p).map String.toUpper = (words q).map String.toUpper := by
  constructor
  · intro h
    have hbehind : nameChars (!pre.isEmpty) (!pre.isEmpty) p.toList =
        nameChars (!pre.isEmpty) (!pre.isEmpty) q.toList := by
      simpa [variableName, ← String.toList_inj] using h
    rw [map_toUpper_words, map_toUpper_words, ← runs_nameChars, hbehind, runs_nameChars]
  · intro h
    rw [variableName_eq, variableName_eq, parts, parts, h]

theorem words_toUpper (text : String) : words text.toUpper = (words text).map String.toUpper := by
  rw [map_toUpper_words, words, String.toUpper, String.toList_map, runs_map_toUpper]

/-- Under one prefix two paths have the same name exactly if their runs agree without ASCII case. So
it does not matter how an index is cut off, nor the case of the letters before it. -/
theorem variableName_eq_iff_runs (pre : String) :
    (∀ p q, variableName pre p = variableName pre q ↔
      (words p).map Text.lowerAscii = (words q).map Text.lowerAscii) ∧
    ∀ p, variableName pre (p ++ "[0]") = variableName pre (p ++ ".0") ∧
      variableName pre (p ++ ".0") = variableName pre (p.toUpper ++ "_0") := by
  refine ⟨fun p q => variableName_eq_iff.trans map_toUpper_eq_iff, fun p => ?_⟩
  have hbracket : words (p ++ "[0]") = words p ++ ["0"] := words_append (c := '[') rfl p "0]"
  have hdot : words (p ++ ".0") = words p ++ ["0"] := words_append (c := '.') rfl p "0"
  have hlow : words (p.toUpper ++ "_0") = (words p).map String.toUpper ++ ["0"] := by
    rw [← words_toUpper]
    exact words_append (c := '_') rfl p.toUpper "0"
  constructor
  · rw [variableName_eq_iff, hbracket, hdot]
  · rw [variableName_eq_iff, map_toUpper_eq_iff, hdot, hlow]
    simp [lowerAscii_toUpper]

end LayeredConfig.Environment
