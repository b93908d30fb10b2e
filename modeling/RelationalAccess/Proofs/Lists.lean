import Mathlib.Data.List.Forall2
import Mathlib.Data.List.GetD

/-!
Lists whose members are related one by one, or that have at most one.
-/

namespace RelationalAccess

variable {α β : Type} {related : α → β → Prop} {left : List α} {right : List β}

/-- A member of the left list has a counterpart in the right one. -/
theorem counterpart_right (each : List.Forall₂ related left right) {item : α}
    (membership : item ∈ left) : ∃ other ∈ right, related item other := by
  induction each with
  | nil => cases membership
  | cons head _ inductionHypothesis =>
    rcases List.mem_cons.mp membership with same | later
    · exact ⟨_, List.mem_cons_self, same ▸ head⟩
    · obtain ⟨other, found, isRelated⟩ := inductionHypothesis later
      exact ⟨other, List.mem_cons_of_mem _ found, isRelated⟩

/-- A member of the right list has a counterpart in the left one. -/
theorem counterpart_left (each : List.Forall₂ related left right) {other : β}
    (membership : other ∈ right) : ∃ item ∈ left, related item other :=
  counterpart_right each.flip membership

/-- If every member of a list has a counterpart, so has the list. -/
theorem exists_counterparts (each : ∀ item ∈ left, ∃ other, related item other) :
    ∃ right, List.Forall₂ related left right := by
  induction left with
  | nil => exact ⟨[], .nil⟩
  | cons item rest inductionHypothesis =>
    obtain ⟨now, later⟩ := List.forall_mem_cons.mp each
    obtain ⟨other, isRelated⟩ := now
    obtain ⟨others, areRelated⟩ := inductionHypothesis later
    exact ⟨other :: others, .cons isRelated areRelated⟩

/-- What every member is picked as, one by one, is what is picked of the list. -/
theorem filterMap_eq_of_picks {pick : α → Option β}
    (each : List.Forall₂ (fun item picked => pick item = some picked) left right) :
    left.filterMap pick = right := by
  induction each with
  | nil => rfl
  | cons picks _ inductionHypothesis =>
    rw [List.filterMap_cons_some picks, inductionHypothesis]

/-- Of the members that a list without repetition is picked from, no two are picked as the same. -/
theorem eq_of_picked {pick : α → Option β} (distinct : (left.filterMap pick).Nodup) {first second : α}
    (isFirst : first ∈ left) (isSecond : second ∈ left) {picked : β}
    (picksFirst : pick first = some picked) (picksSecond : pick second = some picked) :
    first = second := by
  induction left with
  | nil => cases isFirst
  | cons item rest inductionHypothesis =>
    have apart {other : α} (isLater : other ∈ rest) (picksItem : pick item = some picked)
        (picksOther : pick other = some picked) : False := by
      rw [List.filterMap_cons_some picksItem, List.nodup_cons] at distinct
      exact distinct.1 (List.mem_filterMap.mpr ⟨other, isLater, picksOther⟩)
    rcases List.mem_cons.mp isFirst with rfl | firstLater
    · rcases List.mem_cons.mp isSecond with rfl | secondLater
      · rfl
      · exact (apart secondLater picksFirst picksSecond).elim
    · rcases List.mem_cons.mp isSecond with rfl | secondLater
      · exact (apart firstLater picksSecond picksFirst).elim
      · exact inductionHypothesis (distinct.sublist ((List.sublist_cons_self _ _).filterMap _))
          firstLater secondLater

/-- Lists are the same if they are mapped to the same and no members of theirs are. -/
theorem eq_of_map_eq {image : α → β} {other : List α} (same : left.map image = other.map image)
    (apart : ∀ item ∈ left, ∀ item' ∈ other, image item = image item' → item = item') :
    left = other := by
  induction left generalizing other with
  | nil => exact (List.map_eq_nil_iff.mp same.symm).symm
  | cons item rest inductionHypothesis =>
    cases other with
    | nil => cases same
    | cons item' rest' =>
      obtain ⟨now, later⟩ := List.cons.inj same
      have isSame := apart item List.mem_cons_self item' List.mem_cons_self now
      rw [isSame, inductionHypothesis later fun first isFirst second isSecond =>
        apart first (List.mem_cons_of_mem _ isFirst) second (List.mem_cons_of_mem _ isSecond)]

/-- A list is mapped by attempts exactly to the results of those, one by one. -/
theorem mapM_eq_ok_iff {ε : Type} {attempt : α → Except ε β} {items : List α} {results : List β} :
    items.mapM attempt = .ok results ↔
      items.Forall₂ (fun item result => attempt item = .ok result) results := by
  induction items generalizing results with
  | nil =>
    rw [List.mapM_nil, List.forall₂_nil_left_iff]
    exact ⟨fun same => (Except.ok.inj same).symm, fun same => same ▸ rfl⟩
  | cons item rest inductionHypothesis =>
    rw [List.mapM_cons, List.forall₂_cons_left_iff]
    cases now : attempt item with
    | error fault =>
      constructor
      · intro impossible
        cases impossible
      · rintro ⟨_, _, impossible, _⟩
        cases impossible
    | ok first =>
      cases later : rest.mapM attempt with
      | error fault =>
        constructor
        · intro impossible
          cases impossible
        · rintro ⟨_, others, _, each, _⟩
          rw [inductionHypothesis.mpr each] at later
          cases later
      | ok others =>
        constructor
        · intro same
          exact ⟨first, others, rfl, inductionHypothesis.mp later, (Except.ok.inj same).symm⟩
        · rintro ⟨_, _, same, each, rfl⟩
          rw [inductionHypothesis.mpr each] at later
          cases later
          cases same
          rfl

/-- Lists whose members have the same image one by one have the same image. -/
theorem map_eq_of_each {γ : Type} {image : α → γ} {otherImage : β → γ}
    (each : List.Forall₂ related left right)
    (same : ∀ item other, related item other → otherImage other = image item) :
    right.map otherImage = left.map image := by
  induction each with
  | nil => rfl
  | cons head _ inductionHypothesis =>
    rw [List.map_cons, List.map_cons, same _ _ head, inductionHypothesis]

/-- Lists whose members are mapped to the same one by one are mapped to the same. -/
theorem flatMap_eq_of_each {γ : Type} {image : α → List γ} {otherImage : β → List γ}
    (each : List.Forall₂ related left right)
    (same : ∀ item other, related item other → otherImage other = image item) :
    right.flatMap otherImage = left.flatMap image := by
  induction each with
  | nil => rfl
  | cons head _ inductionHypothesis =>
    rw [List.flatMap_cons, List.flatMap_cons, same _ _ head, inductionHypothesis]

/-- A member that is changed to one of the same image leaves the images as they are. -/
theorem map_modify_of_same {image : α → β} {change : α → α}
    (same : ∀ item, image (change item) = image item) (items : List α) (place : Nat) :
    (items.modify place change).map image = items.map image := by
  refine List.ext_getElem? fun other => ?_
  rw [List.getElem?_map, List.getElem?_map, List.getElem?_modify]
  cases items[other]? with
  | none => rfl
  | some item => by_cases here : place = other <;> simp [here, same]

/-- What is mapped without regard to its place is mapped as if it had none. -/
theorem flatMap_mapIdx {γ : Type} {placed : Nat → α → β} {image : β → List γ}
    {plainImage : α → List γ} {items : List α}
    (same : ∀ (place : Nat) (item : α), items[place]? = some item →
      image (placed place item) = plainImage item) :
    (items.mapIdx placed).flatMap image = items.flatMap plainImage := by
  rw [List.mapIdx_eq_zipIdx_map, List.flatMap_map]
  conv_rhs => rw [← List.zipIdx_map_fst 0 items, List.flatMap_map]
  refine List.flatMap_congr fun ⟨item, place⟩ membership => ?_
  exact same place item (List.mem_zipIdx_iff_getElem?.mp membership)

/-- To pick an image of all members but some is to map those that are left. -/
theorem filterMap_unless (excepted : α → Prop) [DecidablePred excepted] (image : α → β)
    (items : List α) :
    items.filterMap (fun item => if excepted item then none else some (image item)) =
      (items.filter fun item => ¬ excepted item).map image := by
  induction items with
  | nil => rfl
  | cons item rest inductionHypothesis =>
    by_cases isExcepted : excepted item <;> simp [isExcepted, inductionHypothesis]

/-- Where all members but one are mapped to nothing, that one is mapped to all there is. -/
theorem flatMap_eq_of_alone {image : α → List β} {items : List α} {place : Nat} {item : α}
    (found : items[place]? = some item)
    (others : ∀ (index : Nat) (other : α), items[index]? = some other → index ≠ place →
      image other = []) : items.flatMap image = image item := by
  induction items generalizing place with
  | nil => cases found
  | cons head rest inductionHypothesis =>
    rw [List.flatMap_cons]
    cases place with
    | zero =>
      obtain rfl := Option.some.inj found
      have nothing : rest.flatMap image = [] := List.flatMap_eq_nil_iff.mpr fun other isOther =>
        have ⟨index, isThere⟩ := List.mem_iff_getElem?.mp isOther
        others (index + 1) other isThere (Nat.succ_ne_zero index)
      rw [nothing, List.append_nil]
    | succ place =>
      rw [others 0 head rfl (Nat.succ_ne_zero place).symm, List.nil_append]
      exact inductionHypothesis found fun index other isThere apart =>
        others (index + 1) other isThere (mt Nat.succ.inj apart)

/-- What is once in the image of one item, and in that of no other, is there as often as the item. -/
theorem count_flatMap_of_alone [BEq α] [LawfulBEq α] [BEq β] {image : α → List β} {wanted : β}
    {item : α} (once : (image item).count wanted = 1)
    (apart : ∀ other, other ≠ item → (image other).count wanted = 0) (items : List α) :
    (items.flatMap image).count wanted = items.count item := by
  induction items with
  | nil => rfl
  | cons first others inductionHypothesis =>
    rw [List.flatMap_cons, List.count_append, List.count_cons, inductionHypothesis]
    by_cases same : first = item
    · simp [same, once, Nat.add_comm]
    · simp [same, apart first same]

/-- What is picked by each of some distinct keys is, in another order, what is picked by any
of them. -/
theorem perm_flatMap_filter [DecidableEq β] (key : α → β) (items : List α) {keys : List β}
    (distinct : keys.Nodup) :
    (keys.flatMap fun wanted => items.filter (key · == wanted)).Perm
      (items.filter fun item => decide (key item ∈ keys)) := by
  induction keys with
  | nil => simp
  | cons wanted others inductionHypothesis =>
    obtain ⟨apart, distinct⟩ := List.nodup_cons.mp distinct
    have wantedFirst : (items.filter fun item => decide (key item ∈ wanted :: others)).filter
        (key · == wanted) = items.filter (key · == wanted) := by
      rw [List.filter_filter]
      refine List.filter_congr fun item _ => ?_
      by_cases isWanted : key item = wanted <;> simp [isWanted]
    have othersLater : (items.filter fun item => decide (key item ∈ wanted :: others)).filter
        (fun item => !(key item == wanted)) =
          items.filter fun item => decide (key item ∈ others) := by
      rw [List.filter_filter]
      refine List.filter_congr fun item _ => ?_
      by_cases isWanted : key item = wanted <;> simp [isWanted, apart]
    have parted := List.filter_append_perm (key · == wanted)
      (items.filter fun item => decide (key item ∈ wanted :: others))
    rw [wantedFirst, othersLater] at parted
    exact ((inductionHypothesis distinct).append_left _).trans parted

/-- Where all members have keys of their own, a key stands at one place. -/
theorem place_eq_of_distinct {key : α → β} {items : List α} (distinct : (items.map key).Nodup)
    {place otherPlace : Nat} {item other : α} (found : items[place]? = some item)
    (foundOther : items[otherPlace]? = some other) (sameKey : key item = key other) :
    place = otherPlace := by
  refine (List.getElem?_inj ?_ distinct).mp ?_
  · simpa using (List.getElem?_eq_some_iff.mp found).1
  · rw [List.getElem?_map, List.getElem?_map, found, foundOther, Option.map_some, Option.map_some,
      sameKey]

/-- Where all members have keys of their own, each is found by its key. -/
theorem findIdx?_eq_of_distinct [BEq β] [LawfulBEq β] {key : α → β} {items : List α}
    (distinct : (items.map key).Nodup) {place : Nat} {item : α} (found : items[place]? = some item) :
    items.findIdx? (key · == key item) = some place := by
  obtain ⟨inside, isItem⟩ := List.getElem?_eq_some_iff.mp found
  refine List.findIdx?_eq_some_iff_getElem.mpr
    ⟨inside, isItem ▸ beq_self_eq_true _, fun earlier before => ?_⟩
  rw [Bool.not_eq_true, beq_eq_false_iff_ne]
  exact fun sameKey => Nat.ne_of_lt before
    (place_eq_of_distinct distinct (List.getElem?_eq_getElem _) found sameKey)

/-- The first member that is wanted is the wanted one with no wanted member before it. -/
theorem find?_eq_some_iff_of_ordered {before : α → α → Prop} {items : List α}
    (ordered : items.Pairwise before)
    (asymm : ∀ {item other}, before item other → ¬ before other item)
    {wanted : α → Bool} {item : α} :
    items.find? wanted = some item ↔ item ∈ items ∧ wanted item = true ∧
      ∀ other ∈ items, wanted other = true → ¬ before other item := by
  rw [List.find?_eq_some_iff_append]
  constructor
  · rintro ⟨isWanted, earlier, later, rfl, unwanted⟩
    refine ⟨by simp, isWanted, fun other membership otherWanted isBefore => ?_⟩
    obtain ⟨_, fromItem, _⟩ := List.pairwise_append.mp ordered
    rcases List.mem_append.mp membership with isEarlier | fromHere
    · simpa [otherWanted] using unwanted other isEarlier
    · rcases List.mem_cons.mp fromHere with rfl | isLater
      · exact asymm isBefore isBefore
      · exact asymm isBefore ((List.pairwise_cons.mp fromItem).1 other isLater)
  · rintro ⟨membership, isWanted, first⟩
    obtain ⟨earlier, later, rfl⟩ := List.append_of_mem membership
    refine ⟨isWanted, earlier, later, rfl, fun other isEarlier => ?_⟩
    have isBefore := (List.pairwise_append.mp ordered).2.2 other isEarlier item List.mem_cons_self
    rw [Bool.not_eq_true', Bool.eq_false_iff]
    exact fun otherWanted => first other (List.mem_append_left _ isEarlier) otherWanted isBefore

/-- What holds of all members holds of all when one is exchanged for another of which it holds. -/
theorem forall_mem_exchange {holds : α → Prop} {before after : List α} {item other : α}
    (all : ∀ member ∈ before ++ item :: after, holds member) (exchanged : holds item → holds other) :
    ∀ member ∈ before ++ other :: after, holds member := by
  rw [List.forall_mem_append, List.forall_mem_cons] at all ⊢
  exact ⟨all.1, exchanged all.2.1, all.2.2⟩

/-- Lists of one length are the same if they have the same members at all positions. -/
theorem ext_getD {first second : List α} (default : α) (width : first.length = second.length)
    (same : ∀ position, position < first.length →
      first.getD position default = second.getD position default) : first = second := by
  refine List.ext_getElem width fun position inside insideToo => ?_
  have here := same position inside
  rwa [List.getD_eq_getElem _ _ inside, List.getD_eq_getElem _ _ insideToo] at here

theorem toList_head? {items : List α} (short : items.length ≤ 1) : items.head?.toList = items := by
  cases items with
  | nil => rfl
  | cons first rest =>
    have none : rest.length = 0 := by simpa using short
    rw [List.length_eq_zero_iff.mp none]
    rfl

end RelationalAccess
