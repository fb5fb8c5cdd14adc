import Mathlib.Data.Rat.Floor
import Mathlib.Tactic.Linarith
import Uwebfilter.CStrings
import Uwebfilter.Factorize

/-!
# The labels of the probabilities

`train` numbers the categories with `factorize` and labels the columns of the
probabilities with `unique`.  The columns follow the numbers, so the labels are
right exactly where no category is missing or the first one is.
-/

namespace Uwebfilter

/-! ## The code -/

/-- A row of the dataset as `read_csv` returns it. -/
structure DatasetRow (Category Words : Type) where
  category : Option Category
  words : Option Words

/-- One column is larger than every other. -/
def StrictlyLargest (columns : List Rat) (index : Nat) : Prop :=
  ∃ inside : index < columns.length, ∀ other, (below : other < columns.length) →
    other ≠ index → columns[other] < columns[index]

instance (columns : List Rat) (index : Nat) : Decidable (StrictlyLargest columns index) :=
  inferInstanceAs (Decidable (∃ inside : index < columns.length, ∀ other,
    (below : other < columns.length) → other ≠ index → columns[other] < columns[index]))

/-- What `train` and `classify` call of scikit-learn, where nothing stands for an
exception. -/
structure Sklearn (Words : Type) where
  Vectorizer : Type
  Vector : Type
  Ridge : Type
  Classifier : Type
  fitVectorizer : List (Option Words) → Option Vectorizer
  transform : Vectorizer → Option Words → Vector
  fitRidge : List Vector → List Int → Option Ridge
  fitCalibrated : Ridge → List Vector → List Int → Option Classifier
  classes : Classifier → List Int
  predict : Classifier → Vector → Int
  predictProba : Classifier → Vector → List Rat
  increasing : ∀ classifier, (classes classifier).Pairwise (· < ·)
  distinct : ∀ {ridge vectors ids classifier},
    fitCalibrated ridge vectors ids = some classifier →
      ∀ id, id ∈ classes classifier ↔ id ∈ ids
  columns : ∀ classifier vector,
    (predictProba classifier vector).length = (classes classifier).length
  largest : ∀ {classifier vector index}, StrictlyLargest (predictProba classifier vector) index →
    (classes classifier)[index]? = some (predict classifier vector)

/-- `sort_values` in descending order, with equal values in any order. -/
structure SortValues (Label : Type) where
  arrange : List (Label × Rat) → List (Label × Rat)
  perm : ∀ rows, (arrange rows).Perm rows
  descending : ∀ rows, (arrange rows).Pairwise fun first second => second.2 ≤ first.2

def roundHalfEven (value : Rat) : Int :=
  let low := ⌊value⌋
  if value - low < 1 / 2 then low
  else if 1 / 2 < value - low then low + 1
  else if low % 2 = 0 then low
  else low + 1

/-- `round(x, 2)` -/
def round2 (value : Rat) : Rat := roundHalfEven (value * 100) / 100

/-- `dict` of pairs, where a later pair of a key replaces an earlier one. -/
def dictOf {Label : Type} (pairs : List (Int × Label)) (key : Int) : Option Label :=
  (pairs.reverse.find? fun pair => pair.1 = key).map Prod.snd

section Code

variable {Category Words : Type} [DecidableEq Category] (sklearn : Sklearn Words)

/-- The dictionary `train` returns. -/
structure ModelUtils (Category : Type) where
  model : sklearn.Classifier
  idToCategory : Int → Option (Option Category)
  fittedVectorizer : sklearn.Vectorizer
  dfCategoryUnique : List (Option Category)

/-- `train`.  Only texts can be joined for the verbose output. -/
def train (isText : Category → Bool) (dataset : List (DatasetRow Category Words))
    (verbose : Bool) : Option (ModelUtils sklearn Category) :=
  let column := dataset.map DatasetRow.category
  let dfCategoryUnique := Factorize.unique column
  if verbose && !dfCategoryUnique.all (fun category => category.any isText) then none
  else do
    let categoryId := Factorize.codes column
    let idToCategory := dictOf (categoryId.zip column).eraseDups
    let x := dataset.map DatasetRow.words
    let fittedVectorizer ← sklearn.fitVectorizer x
    let tfidfVectorizerVectors := x.map (sklearn.transform fittedVectorizer)
    let modelRidge ← sklearn.fitRidge tfidfVectorizerVectors categoryId
    let modelCalibrated ← sklearn.fitCalibrated modelRidge tfidfVectorizerVectors categoryId
    some ⟨modelCalibrated, idToCategory, fittedVectorizer, dfCategoryUnique⟩

/-- `Model.classify`: the prediction and the table of probabilities. -/
def classify (sortValues : SortValues (Option Category)) (utils : ModelUtils sklearn Category)
    (text : Words) : Option (Option Category × List (Option Category × Rat)) := do
  let transformed := sklearn.transform utils.fittedVectorizer (some text)
  let prediction ← utils.idToCategory (sklearn.predict utils.model transformed)
  let percents := (sklearn.predictProba utils.model transformed).map (· * 100)
  if percents.length = utils.dfCategoryUnique.length then
    let probability := sortValues.arrange (utils.dfCategoryUnique.zip percents)
    some (prediction, probability.map fun row => (row.1, round2 row.2))
  else none

/-- Each entry of `df_category_unique` is that of the class at its index, and the
category predicted is the row of the table with the largest probability. -/
structure LabelsAgree (sortValues : SortValues (Option Category))
    (utils : ModelUtils sklearn Category) : Prop where
  labels : utils.dfCategoryUnique.map some =
    (sklearn.classes utils.model).map utils.idToCategory
  predicts : ∀ text index,
    StrictlyLargest (sklearn.predictProba utils.model
      (sklearn.transform utils.fittedVectorizer (some text))) index →
    ∃ prediction value rest,
      classify sklearn sortValues utils text = some (prediction, (prediction, value) :: rest) ∧
        ∀ row ∈ rest, row.2 ≤ value

end Code

/-! ## Rounding -/

theorem floor_le_roundHalfEven (value : Rat) : ⌊value⌋ ≤ roundHalfEven value := by
  unfold roundHalfEven
  dsimp only
  split_ifs <;> omega

theorem roundHalfEven_le (value : Rat) : roundHalfEven value ≤ ⌊value⌋ + 1 := by
  unfold roundHalfEven
  dsimp only
  split_ifs <;> omega

theorem roundHalfEven_mono {small large : Rat} (le : small ≤ large) :
    roundHalfEven small ≤ roundHalfEven large := by
  rcases (Int.floor_le_floor le).lt_or_eq with less | same
  · have above := roundHalfEven_le small
    have below := floor_le_roundHalfEven large
    omega
  · unfold roundHalfEven
    dsimp only
    rw [← same]
    split_ifs <;> first | omega | linarith

theorem round2_mono {small large : Rat} (le : small ≤ large) : round2 small ≤ round2 large := by
  have rounded : roundHalfEven (small * 100) ≤ roundHalfEven (large * 100) :=
    roundHalfEven_mono (by linarith)
  have cast : (roundHalfEven (small * 100) : Rat) ≤ roundHalfEven (large * 100) := by
    exact_mod_cast rounded
  unfold round2
  linarith

/-! ## The dictionary -/

/-- A dictionary of the pairs of a function is the function. -/
theorem dictOf_eq {Label : Type} {pairs : List (Int × Label)} {value : Int → Label} {key : Int}
    (graph : ∀ pair ∈ pairs, pair.2 = value pair.1) (present : key ∈ pairs.map Prod.fst) :
    dictOf pairs key = some (value key) := by
  obtain ⟨pair, member, rfl⟩ := List.mem_map.mp present
  cases found : pairs.reverse.find? fun other => other.1 = pair.1 with
  | none =>
      rw [List.find?_eq_none] at found
      exact absurd (by simp) (found pair (List.mem_reverse.mpr member))
  | some other =>
      have same : other.1 = pair.1 := by simpa using List.find?_some found
      have inside := List.mem_reverse.mp (List.mem_of_find?_eq_some found)
      rw [dictOf, found, Option.map_some, graph other inside, same]

section Labels

variable {Category Words : Type} [DecidableEq Category] {sklearn : Sklearn Words}

theorem idToCategory_eq {column : List (Option Category)} {id : Int}
    (coded : id ∈ Factorize.codes column) :
    dictOf ((Factorize.codes column).zip column).eraseDups id =
      some (Factorize.decode column id) := by
  have pairs : (Factorize.codes column).zip column =
      column.map fun category => (Factorize.code column category, category) :=
    List.map_prod_right_eq_zip.symm
  rw [pairs]
  apply dictOf_eq
  · intro pair member
    rw [List.mem_eraseDups] at member
    obtain ⟨category, inColumn, rfl⟩ := List.mem_map.mp member
    exact (Factorize.decode_code inColumn).symm
  · obtain ⟨category, inColumn, rfl⟩ := List.mem_map.mp coded
    refine List.mem_map.mpr ⟨(Factorize.code column category, category), ?_, rfl⟩
    rw [List.mem_eraseDups]
    exact List.mem_map_of_mem inColumn

/-- What `train` returns, as far as the categories go. -/
theorem train_eq_some {isText : Category → Bool} {dataset : List (DatasetRow Category Words)}
    {verbose : Bool} {utils : ModelUtils sklearn Category}
    (accepted : train sklearn isText dataset verbose = some utils) :
    utils.dfCategoryUnique = Factorize.unique (dataset.map DatasetRow.category) ∧
      sklearn.classes utils.model = Factorize.ids (dataset.map DatasetRow.category) ∧
      ∀ id ∈ sklearn.classes utils.model, utils.idToCategory id =
        some (Factorize.decode (dataset.map DatasetRow.category) id) := by
  unfold train at accepted
  dsimp only at accepted
  split at accepted
  · cases accepted
  · simp only [Option.bind_eq_bind, Option.bind_eq_some_iff, Option.some.injEq] at accepted
    obtain ⟨vectorizer, -, ridge, -, classifier, fitted, rfl⟩ := accepted
    refine ⟨rfl, ?_, ?_⟩
    · exact Factorize.eq_ids (sklearn.increasing classifier) (sklearn.distinct fitted)
    · intro id member
      exact idToCategory_eq ((sklearn.distinct fitted id).mp member)

/-- The labels are right where the distinct values are those of the codes. -/
theorem labels_iff {isText : Category → Bool} {dataset : List (DatasetRow Category Words)}
    {verbose : Bool} {utils : ModelUtils sklearn Category}
    (accepted : train sklearn isText dataset verbose = some utils) :
    utils.dfCategoryUnique.map some = (sklearn.classes utils.model).map utils.idToCategory ↔
      none ∉ dataset.map DatasetRow.category ∨
        (dataset.map DatasetRow.category).head? = some none := by
  obtain ⟨unique, classes, decodes⟩ := train_eq_some accepted
  rw [← Factorize.unique_eq_map_decode_iff, ← unique, ← classes]
  have named : (sklearn.classes utils.model).map utils.idToCategory =
      ((sklearn.classes utils.model).map
        (Factorize.decode (dataset.map DatasetRow.category))).map some := by
    rw [List.map_map]
    exact List.map_congr_left decodes
  rw [named]
  exact (List.map_injective_iff.mpr (Option.some_injective _)).eq_iff

/-! ## The prediction -/

/-- The strictly largest column is in front once the rows are sorted. -/
theorem arrange_of_strictlyLargest {Label : Type} (sortValues : SortValues Label)
    {labels : List Label} {columns : List Rat} {index : Nat} {label : Label}
    (largest : StrictlyLargest columns index) (named : labels[index]? = some label) :
    ∃ value rest, sortValues.arrange (labels.zip (columns.map (· * 100))) = (label, value) :: rest ∧
      ∀ row ∈ rest, row.2 ≤ value := by
  obtain ⟨inside, above⟩ := largest
  obtain ⟨labelled, rfl⟩ := List.getElem?_eq_some_iff.mp named
  set rows := labels.zip (columns.map (· * 100)) with rowsEq
  have perm := sortValues.perm rows
  have inRows : (labels[index], columns[index] * 100) ∈ rows := by
    rw [rowsEq, List.mem_iff_getElem]
    exact ⟨index, by simp [labelled, inside], by simp⟩
  cases sorted : sortValues.arrange rows with
  | nil =>
      rw [sorted] at perm
      rw [← perm.mem_iff] at inRows
      cases inRows
  | cons first rest =>
      have descending := sortValues.descending rows
      rw [sorted, List.pairwise_cons] at descending
      rw [sorted] at perm
      have greatest : columns[index] * 100 ≤ first.2 := by
        rcases List.mem_cons.mp (perm.mem_iff.mpr inRows) with same | later
        · rw [← same]
        · exact descending.1 _ later
      have firstIn : first ∈ rows := perm.mem_iff.mp List.mem_cons_self
      rw [rowsEq, List.mem_iff_getElem] at firstIn
      obtain ⟨other, below, rfl⟩ := firstIn
      rw [List.length_zip, List.length_map] at below
      simp only [List.getElem_zip, List.getElem_map] at greatest
      have same : other = index := by
        by_contra differs
        have less := above other (by omega) differs
        linarith
      subst same
      refine ⟨columns[other] * 100, rest, ?_, ?_⟩
      · simp
      · intro row member
        simpa using descending.1 row member

omit [DecidableEq Category] in
theorem predicts_of_labels {utils : ModelUtils sklearn Category}
    (sortValues : SortValues (Option Category))
    (labels : utils.dfCategoryUnique.map some =
      (sklearn.classes utils.model).map utils.idToCategory) (text : Words) {index : Nat}
    (largest : StrictlyLargest (sklearn.predictProba utils.model
      (sklearn.transform utils.fittedVectorizer (some text))) index) :
    ∃ prediction value rest,
      classify sklearn sortValues utils text = some (prediction, (prediction, value) :: rest) ∧
        ∀ row ∈ rest, row.2 ≤ value := by
  have sameLength : utils.dfCategoryUnique.length = (sklearn.classes utils.model).length := by
    simpa using congrArg List.length labels
  have labelled : utils.dfCategoryUnique[index]?.map some =
      (sklearn.classes utils.model)[index]?.map utils.idToCategory := by
    rw [← List.getElem?_map, labels, List.getElem?_map]
  rw [sklearn.largest largest, Option.map_some, Option.map_eq_some_iff] at labelled
  obtain ⟨prediction, named, translated⟩ := labelled
  obtain ⟨value, rest, sorted, below⟩ := arrange_of_strictlyLargest sortValues largest named
  refine ⟨prediction, round2 value, rest.map fun row => (row.1, round2 row.2), ?_, ?_⟩
  · unfold classify
    simp only [← translated, Option.bind_eq_bind, Option.bind_some, List.length_map,
      sklearn.columns, sameLength, if_true, sorted, List.map_cons]
  · intro row member
    obtain ⟨before, inRest, rfl⟩ := List.mem_map.mp member
    exact round2_mono (below before inRest)

/-- The labels agree with the classes exactly where no category is missing or the
first one is. -/
theorem labelsAgree_iff (sklearn : Sklearn Words) (sortValues : SortValues (Option Category))
    (isText : Category → Bool) (dataset : List (DatasetRow Category Words)) (verbose : Bool)
    (utils : ModelUtils sklearn Category)
    (accepted : train sklearn isText dataset verbose = some utils) :
    LabelsAgree sklearn sortValues utils ↔
      none ∉ dataset.map DatasetRow.category ∨
        (dataset.map DatasetRow.category).head? = some none := by
  rw [← labels_iff accepted]
  constructor
  · exact LabelsAgree.labels
  · intro labels
    exact ⟨labels, fun text _ largest => predicts_of_labels sortValues labels text largest⟩

end Labels

/-! ## A small learner -/

theorem StrictlyLargest.unique {columns : List Rat} {first second : Nat}
    (firstLargest : StrictlyLargest columns first)
    (secondLargest : StrictlyLargest columns second) : first = second := by
  obtain ⟨firstInside, firstAbove⟩ := firstLargest
  obtain ⟨secondInside, secondAbove⟩ := secondLargest
  by_contra differs
  have less := firstAbove second secondInside (Ne.symm differs)
  have more := secondAbove first firstInside differs
  exact lt_asymm less more

/-- The documents and ids a learner has seen. -/
abbrev Votes := List (Option Bytes × Int)

def Votes.classes (votes : Votes) : List Int :=
  ((votes.map Prod.snd).eraseDups).insertionSort (· ≤ ·)

/-- For each class the share of the documents like this one that are of it. -/
def Votes.shares (votes : Votes) (document : Option Bytes) : List Rat :=
  votes.classes.map fun id =>
    (votes.count (document, id) : Rat) / (votes.countP fun vote => vote.1 = document)

def Votes.predict (votes : Votes) (document : Option Bytes) : Int :=
  let columns := votes.shares document
  match (List.range columns.length).find? fun index => StrictlyLargest columns index with
  | some index => votes.classes.getD index 0
  | none => votes.classes.headD 0

theorem Votes.mem_classes {votes : Votes} {id : Int} :
    id ∈ votes.classes ↔ id ∈ votes.map Prod.snd := by
  rw [Votes.classes, List.mem_insertionSort, List.mem_eraseDups]

theorem Votes.increasing (votes : Votes) : votes.classes.Pairwise (· < ·) := by
  have sorted := List.pairwise_insertionSort (· ≤ ·) (votes.map Prod.snd).eraseDups
  have distinct : votes.classes.Nodup :=
    (List.perm_insertionSort (· ≤ ·) _).nodup_iff.mpr (Factorize.nodup_eraseDups _)
  exact (sorted.and distinct).imp fun ordered => lt_of_le_of_ne ordered.1 ordered.2

theorem Votes.predict_of_largest {votes : Votes} {document : Option Bytes} {index : Nat}
    (largest : StrictlyLargest (votes.shares document) index) :
    votes.classes[index]? = some (votes.predict document) := by
  have inside : index < votes.classes.length := by simpa [Votes.shares] using largest.1
  unfold Votes.predict
  dsimp only
  cases found : (List.range (votes.shares document).length).find? fun index =>
      StrictlyLargest (votes.shares document) index with
  | none =>
      rw [List.find?_eq_none] at found
      have absent := found index (List.mem_range.mpr largest.1)
      simp [largest] at absent
  | some other =>
      have otherLargest : StrictlyLargest (votes.shares document) other := by
        simpa using List.find?_some found
      obtain rfl := largest.unique otherLargest
      simp [List.getD, inside]

/-- A learner that counts, and like the calibration asks for two classes of five
documents each. -/
def votingSklearn : Sklearn Bytes where
  Vectorizer := Unit
  Vector := Option Bytes
  Ridge := Unit
  Classifier := Votes
  fitVectorizer documents := if documents.all Option.isSome then some () else none
  transform _ document := document
  fitRidge _ _ := some ()
  fitCalibrated _ vectors ids :=
    if 2 ≤ ids.eraseDups.length ∧ (∀ id ∈ ids, 5 ≤ ids.count id) ∧ vectors.length = ids.length then
      some (vectors.zip ids)
    else none
  classes := Votes.classes
  predict := Votes.predict
  predictProba := Votes.shares
  increasing := Votes.increasing
  distinct := by
    intro _ vectors ids votes fitted id
    split at fitted
    · rename_i accepts
      obtain rfl := Option.some.inj fitted
      rw [Votes.mem_classes, List.map_snd_zip (Nat.le_of_eq accepts.2.2.symm)]
    · cases fitted
  columns votes document := by simp [Votes.shares]
  largest := Votes.predict_of_largest

/-- Rows of two categories, the second of which may be missing. -/
def rowsOf (second : Option Bytes) : List (DatasetRow Bytes Bytes) :=
  List.replicate 5 ⟨some [97], some [120]⟩ ++ List.replicate 5 ⟨second, some [121]⟩

/-- `sort_values` as a stable sort. -/
def stableSort : SortValues (Option Bytes) where
  arrange rows := rows.insertionSort fun first second => second.2 ≤ first.2
  perm := List.perm_insertionSort _
  descending := List.pairwise_insertionSort _

theorem labelsAgree_iff_twoCategories :
    ∃ utils, train votingSklearn (fun _ => true) (rowsOf (some [98])) true = some utils ∧
      LabelsAgree votingSklearn stableSort utils := by
  refine ⟨_, rfl, ?_⟩
  rw [labelsAgree_iff votingSklearn stableSort (fun _ => true) (rowsOf (some [98])) true _ rfl]
  exact .inl (by decide)

/-- Behind a category, rows with an empty cell shift the labels by one. -/
theorem not_labelsAgree_emptyCell :
    ∃ utils, train votingSklearn (fun _ => true) (rowsOf none) false = some utils ∧
      ¬ LabelsAgree votingSklearn stableSort utils := by
  refine ⟨_, rfl, ?_⟩
  intro agrees
  have labels := agrees.labels
  revert labels
  decide

end Uwebfilter
