import EdgePlacement.Proofs.Network.Layout

/-!
# Charges along a path

Reserving a path charges each of its links with the bandwidth, if all of them have room. Otherwise
the links before the first one without room are charged and discharged again. What a discharge
leaves of a counter is its sum with the bandwidth less the bandwidth, each rounded as numbers are.
-/

namespace EdgePlacement

set_option autoImplicit false

variable {α : Type} [Quantity α]

/-- The bandwidth added to every link of the given ids, once. -/
def Link.charged (ids : List String) (bandwidth : α) (l : Link α) : Link α :=
  if l.id ∈ ids then { l with used := l.used + bandwidth } else l

def Topology.charged (t : Topology α) (ids : List String) (bandwidth : α) : Topology α :=
  { t with links := t.links.map (Link.charged ids bandwidth) }

/-- The bandwidth added to every link of the given ids and released again. -/
def Link.discharged (ids : List String) (bandwidth : α) (l : Link α) : Link α :=
  if l.id ∈ ids then ({ l with used := l.used + bandwidth } : Link α).release bandwidth else l

def Topology.discharged (t : Topology α) (ids : List String) (bandwidth : α) : Topology α :=
  { t with links := t.links.map (Link.discharged ids bandwidth) }

/-- The counter is back where it was when the bandwidth has been added to it and taken off again. -/
def Link.Restored (bandwidth : α) (l : Link α) : Prop :=
  Quantity.positivePart (l.used + bandwidth - bandwidth) = l.used

def Link.hasRoom (bandwidth : α) (l : Link α) : Bool :=
  !decide (l.capacity < l.used + bandwidth)

/-- The links of a path that are taken before one refuses. -/
def Link.takenAlong (path : List (Link α)) (bandwidth : α) : List (Link α) :=
  path.takeWhile (Link.hasRoom bandwidth)

namespace Link

theorem has_room_iff (bandwidth : α) (l : Link α) :
    l.hasRoom bandwidth = true ↔ ¬ l.capacity < l.used + bandwidth := by
  unfold hasRoom
  rw [Bool.not_eq_true', decide_eq_false_iff_not]

theorem reserve_eq (bandwidth : α) (l : Link α) :
    l.reserve? bandwidth =
      if l.hasRoom bandwidth then some { l with used := l.used + bandwidth } else none := by
  unfold reserve?
  by_cases room : l.hasRoom bandwidth = true
  · rw [if_pos room, if_neg ((has_room_iff bandwidth l).mp room)]
  · have refused : l.capacity < l.used + bandwidth :=
      not_not.mp fun granted => room ((has_room_iff bandwidth l).mpr granted)
    rw [if_neg room, if_pos refused]

theorem charged_id (ids : List String) (bandwidth : α) (l : Link α) :
    (l.charged ids bandwidth).id = l.id := by
  unfold charged
  split_ifs <;> rfl

theorem charged_reset (ids : List String) (bandwidth : α) (l : Link α) :
    (l.charged ids bandwidth).reset = l.reset := by
  unfold charged
  split_ifs <;> rfl

theorem discharged_id (ids : List String) (bandwidth : α) (l : Link α) :
    (l.discharged ids bandwidth).id = l.id := by
  unfold discharged
  split_ifs <;> rfl

theorem discharged_reset (ids : List String) (bandwidth : α) (l : Link α) :
    (l.discharged ids bandwidth).reset = l.reset := by
  unfold discharged
  split_ifs <;> rfl

theorem discharged_same_iff (ids : List String) (bandwidth : α) (l : Link α) :
    l.discharged ids bandwidth = l ↔ (l.id ∈ ids → l.Restored bandwidth) := by
  unfold discharged
  split_ifs with listed
  · constructor
    · intro same _
      exact congrArg Link.used same
    · intro restored
      change { l with used := Quantity.positivePart (l.used + bandwidth - bandwidth) } = l
      rw [restored listed]
  · simp [listed]

end Link

namespace Topology

variable {t : Topology α}

theorem charged_none (t : Topology α) (bandwidth : α) : t.charged [] bandwidth = t := by
  have same : t.links.map (Link.charged [] bandwidth) = t.links :=
    List.map_id'' (fun l => if_neg List.not_mem_nil) t.links
  unfold charged
  rw [same]

theorem discharged_none (t : Topology α) (bandwidth : α) : t.discharged [] bandwidth = t := by
  have same : t.links.map (Link.discharged [] bandwidth) = t.links :=
    List.map_id'' (fun l => if_neg List.not_mem_nil) t.links
  unfold discharged
  rw [same]

theorem map_links_keeps_layout (t : Topology α) (f : Link α → Link α)
    (kept : ∀ l, (f l).reset = l.reset) :
    ({ t with links := t.links.map f } : Topology α).resetUsage = t.resetUsage := by
  unfold resetUsage
  rw [List.map_map]
  congr 1
  exact List.map_congr_left fun l _ => kept l

theorem charged_keeps_layout (t : Topology α) (ids : List String) (bandwidth : α) :
    (t.charged ids bandwidth).resetUsage = t.resetUsage :=
  t.map_links_keeps_layout _ (Link.charged_reset ids bandwidth)

theorem discharged_keeps_layout (t : Topology α) (ids : List String) (bandwidth : α) :
    (t.discharged ids bandwidth).resetUsage = t.resetUsage :=
  t.map_links_keeps_layout _ (Link.discharged_reset ids bandwidth)

/-- A discharge leaves its mark on the links that it does not restore, and on no others. -/
theorem discharged_same_iff (t : Topology α) (ids : List String) (bandwidth : α) :
    t.discharged ids bandwidth = t ↔ ∀ l ∈ t.links, l.id ∈ ids → l.Restored bandwidth := by
  have links : t.discharged ids bandwidth = t ↔
      t.links.map (Link.discharged ids bandwidth) = t.links.map id := by
    rw [List.map_id]
    constructor
    · intro same
      exact congrArg Topology.links same
    · intro same
      unfold discharged
      rw [same]
  rw [links, List.map_inj_left]
  exact forall₂_congr fun l _ => l.discharged_same_iff ids bandwidth

/-! ## Taking links -/

/-- A link that has not been charged is found as it is stored. -/
theorem uncharged_link_found (wellFormed : t.WellFormed) {taken : List String} {l : Link α}
    (stored : l ∈ t.links) (fresh : l.id ∉ taken) (bandwidth : α) :
    (t.charged taken bandwidth).link? l.id = some l := by
  have uncharged : l.charged taken bandwidth = l := if_neg fresh
  have member : l ∈ (t.charged taken bandwidth).links :=
    List.mem_map.mpr ⟨l, stored, uncharged⟩
  have charged := wellFormed.of_same_layout (t.charged_keeps_layout taken bandwidth)
  exact find_by_key Link.id charged.ids member

theorem charge_another (wellFormed : t.WellFormed) {taken : List String} {l : Link α}
    (stored : l ∈ t.links) (fresh : l.id ∉ taken) (bandwidth : α) :
    (t.charged taken bandwidth).updateLink l.id
        (fun _ => { l with used := l.used + bandwidth }) =
      t.charged (taken ++ [l.id]) bandwidth := by
  unfold updateLink charged
  rw [List.map_map]
  congr 1
  refine List.map_congr_left fun k stored' => ?_
  rw [Function.comp_apply, Link.charged_id]
  by_cases same : k.id = l.id
  · obtain rfl := wellFormed.link_unique stored' stored same
    have charge : k.charged (taken ++ [k.id]) bandwidth =
        { k with used := k.used + bandwidth } := if_pos (by simp)
    rw [if_pos rfl, charge]
  · rw [if_neg same]
    unfold Link.charged
    simp [same]

/-! ## Giving links back -/

theorem release_next_charge (t : Topology α) (bandwidth : α) {given rest : List String}
    {id : String} (notGiven : id ∉ given) (once : id ∉ rest) :
    ((t.discharged given bandwidth).charged (id :: rest) bandwidth).updateLink id
        (·.release bandwidth) =
      (t.discharged (given ++ [id]) bandwidth).charged rest bandwidth := by
  unfold updateLink charged discharged
  simp only [List.map_map]
  congr 1
  refine List.map_congr_left fun l _ => ?_
  simp only [Function.comp_apply, Link.charged_id, Link.discharged_id]
  by_cases same : l.id = id
  · subst same
    have kept : l.discharged given bandwidth = l := if_neg notGiven
    have given' : l.discharged (given ++ [l.id]) bandwidth =
        ({ l with used := l.used + bandwidth } : Link α).release bandwidth := if_pos (by simp)
    have charge : l.charged (l.id :: rest) bandwidth = { l with used := l.used + bandwidth } :=
      if_pos List.mem_cons_self
    have free : (({ l with used := l.used + bandwidth } : Link α).release bandwidth).charged rest
        bandwidth = ({ l with used := l.used + bandwidth } : Link α).release bandwidth :=
      if_neg once
    rw [if_pos rfl, kept, given', charge, free]
  · have other : l.discharged (given ++ [id]) bandwidth = l.discharged given bandwidth := by
      unfold Link.discharged
      simp [same]
    rw [if_neg same, other]
    unfold Link.charged
    simp [Link.discharged_id, same]

theorem release_charges (t : Topology α) (bandwidth : α) (given rest : List String)
    (distinct : (given ++ rest).Nodup) :
    ((t.discharged given bandwidth).charged rest bandwidth).releaseLinks rest bandwidth =
      t.discharged (given ++ rest) bandwidth := by
  induction rest generalizing given with
  | nil =>
      rw [List.append_nil, charged_none]
      rfl
  | cons id rest ih =>
      have notGiven : id ∉ given := by
        intro again
        exact (List.nodup_append.mp distinct).2.2 id again id List.mem_cons_self rfl
      have once : id ∉ rest :=
        (List.nodup_cons.mp (List.nodup_append.mp distinct).2.1).1
      have regrouped : given ++ id :: rest = given ++ [id] ++ rest := by simp
      unfold releaseLinks at ih ⊢
      rw [List.foldl_cons, t.release_next_charge bandwidth notGiven once, regrouped]
      exact ih (given ++ [id]) (regrouped ▸ distinct)

/-! ## Reserving a path -/

/-- The links that are left are taken while there is room; at the first refusal all links taken so
far are given back. -/
theorem reserve_rest_eq (wellFormed : t.WellFormed) (bandwidth : α) (taken rest : List (Link α))
    (stored : ∀ l ∈ rest, l ∈ t.links) (distinct : ((taken ++ rest).map (·.id)).Nodup) :
    reserveRest bandwidth (taken.map (·.id)) (rest.map (·.id))
        (t.charged (taken.map (·.id)) bandwidth) =
      if rest.all (Link.hasRoom bandwidth) then
        (t.charged ((taken ++ rest).map (·.id)) bandwidth, true)
      else
        (t.discharged ((taken ++ Link.takenAlong rest bandwidth).map (·.id)) bandwidth, false) := by
  induction rest generalizing taken with
  | nil =>
      rw [List.append_nil]
      rfl
  | cons l rest ih =>
      have regrouped : taken ++ l :: rest = taken ++ [l] ++ rest := by simp
      rw [List.map_append] at distinct
      have names := List.nodup_append.mp distinct
      have fresh : l.id ∉ taken.map (·.id) := by
        intro again
        exact names.2.2 l.id again l.id List.mem_cons_self rfl
      have storedHere := stored l List.mem_cons_self
      have storedRest := fun k member => stored k (List.mem_cons_of_mem l member)
      rw [List.map_cons, reserveRest, uncharged_link_found wellFormed storedHere fresh,
        Option.bind_some, Link.reserve_eq, List.all_cons, Link.takenAlong, List.takeWhile_cons]
      by_cases room : l.hasRoom bandwidth = true
      · have distinctOn : ((taken ++ [l] ++ rest).map (·.id)).Nodup := by
          rw [← regrouped, List.map_append]
          exact distinct
        have rest_eq := ih (taken ++ [l]) storedRest distinctOn
        rw [List.map_append, List.map_singleton] at rest_eq
        rw [if_pos room, if_pos room, room, Bool.true_and]
        dsimp only
        rw [charge_another wellFormed storedHere fresh, rest_eq, regrouped, List.append_assoc,
          List.append_assoc]
        rfl
      · have refused : l.hasRoom bandwidth = false := Bool.eq_false_iff.mpr room
        have released := t.release_charges bandwidth [] (taken.map Link.id) names.1
        rw [discharged_none, List.nil_append] at released
        rw [if_neg room, if_neg room, refused, Bool.false_and, if_neg Bool.false_ne_true,
          List.append_nil]
        dsimp only
        rw [released]

theorem reserve_path_eq (wellFormed : t.WellFormed) (bandwidth : α) (path : List (Link α))
    (stored : ∀ l ∈ path, l ∈ t.links) (distinct : (path.map (·.id)).Nodup) :
    t.reservePath path bandwidth =
      if path.all (Link.hasRoom bandwidth) then (t.charged (path.map (·.id)) bandwidth, true)
      else (t.discharged ((Link.takenAlong path bandwidth).map (·.id)) bandwidth, false) := by
  have outcome := reserve_rest_eq wellFormed bandwidth [] path stored distinct
  rwa [List.map_nil, charged_none, List.nil_append, List.nil_append] at outcome

end Topology
end EdgePlacement
