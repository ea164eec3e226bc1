import Mathlib.Data.List.NodupEquivFin
import EdgePlacement.Proofs.Network.Bandwidth
import EdgePlacement.Proofs.Placement.Draws
import EdgePlacement.Proofs.Relaxation.Statements

/-!
# Integral fractions

A row with a one among zeros leaves the sampler no choice. Where the columns fit, the sampled node
has room: what is in use of it and what its column still has to come are within its capacity at
every turn. So integral fractions that fit are rounded to what they are.
-/

namespace EdgePlacement

set_option autoImplicit false

variable {σ δ : Type}

/-! ## Whole rows -/

structure WholeRow (weights : List Rat) : Prop where
  binary : ∀ weight ∈ weights, weight = 0 ∨ weight = 1
  single : weights.count 1 = 1

/-- A matrix of zeros and ones with exactly one one in each row. -/
structure Fractions.Integral (x : Fractions Rat) : Prop where
  rectangular : ∀ row ∈ x.rows, row.length = x.columns
  whole : ∀ row ∈ x.rows, WholeRow row

theorem sum_of_binary {weights : List Rat} (binary : ∀ weight ∈ weights, weight = 0 ∨ weight = 1) :
    weights.sum = weights.count 1 := by
  induction weights with
  | nil => rfl
  | cons weight rest ih =>
      obtain ⟨first, later⟩ := List.forall_mem_cons.mp binary
      rw [List.sum_cons, ih later]
      rcases first with rfl | rfl
      · rw [List.count_cons_of_ne zero_ne_one, zero_add]
      · rw [List.count_cons_self, Nat.cast_add, Nat.cast_one, add_comm]

namespace WholeRow

variable {weights : List Rat} {column : Nat}

theorem not_below (whole : WholeRow weights) : ∀ weight ∈ weights, 0 ≤ weight := by
  intro weight listed
  rcases whole.binary weight listed with rfl | rfl
  · exact le_rfl
  · exact zero_le_one

theorem sum_eq_one (whole : WholeRow weights) : weights.sum = 1 := by
  rw [sum_of_binary whole.binary, whole.single, Nat.cast_one]

theorem lifted (whole : WholeRow weights) : weights.map Quantity.liftToZero = weights := by
  refine (List.map_congr_left fun weight listed => ?_).trans weights.map_id
  exact if_neg (not_lt.mpr (whole.not_below weight listed))

theorem massive (whole : WholeRow weights) {tolerance : Rat} (below : tolerance < 1) :
    ¬ Massless tolerance weights := by
  unfold Massless
  rw [whole.lifted, Summation.total_exact, Quantity.total_eq_sum, whole.sum_eq_one]
  exact not_le.mpr below

theorem shares (whole : WholeRow weights) : sharesOf weights = weights := by
  unfold sharesOf
  dsimp only
  rw [whole.lifted, Summation.total_exact, Quantity.total_eq_sum, whole.sum_eq_one]
  simp only [div_one, List.map_id']

theorem one_stands (whole : WholeRow weights) : weights[weights.idxOf 1]? = some 1 := by
  have listed : (1 : Rat) ∈ weights := List.count_pos_iff.mp (whole.single ▸ Nat.one_pos)
  have inside := List.idxOf_lt_length_of_mem listed
  rw [List.getElem?_eq_getElem inside, List.getElem_idxOf inside]

theorem column_unique (whole : WholeRow weights) (chosen : weights[column]? = some 1) {other : Nat}
    (chosen' : weights[other]? = some 1) : other = column := by
  obtain ⟨inside, one⟩ := List.getElem?_eq_some_iff.mp chosen
  obtain ⟨inside', one'⟩ := List.getElem?_eq_some_iff.mp chosen'
  have twice : ∀ {i j : Nat} (first : i < weights.length) (second : j < weights.length),
      weights[i] = 1 → weights[j] = 1 → ¬ i < j := by
    intro i j first second one one' before
    have duplicate : List.Duplicate 1 weights := List.duplicate_iff_exists_distinct_get.mpr
      ⟨⟨i, first⟩, ⟨j, second⟩, before, one.symm, one'.symm⟩
    have least := List.duplicate_iff_two_le_count.mp duplicate
    rw [whole.single] at least
    exact absurd least (by decide)
  exact le_antisymm (not_lt.mp (twice inside inside' one one'))
    (not_lt.mp (twice inside' inside one' one))

theorem weight_of_column (chosen : weights[column]? = some 1) : weights.getD column 0 = 1 := by
  rw [List.getD_eq_getElem?_getD, chosen, Option.getD_some]

theorem weight_of_other (whole : WholeRow weights) (chosen : weights[column]? = some 1)
    {other : Nat} (apart : other ≠ column) : weights.getD other 0 = 0 := by
  rw [List.getD_eq_getElem?_getD]
  cases stands : weights[other]? with
  | none => rfl
  | some weight =>
      rcases whole.binary weight (List.mem_of_getElem? stands) with rfl | rfl
      · rfl
      · exact absurd (whole.column_unique chosen stands) apart

theorem weight_not_below (whole : WholeRow weights) (column : Nat) : 0 ≤ weights.getD column 0 := by
  rw [List.getD_eq_getElem?_getD]
  cases stands : weights[column]? with
  | none => exact le_rfl
  | some weight => exact whole.not_below weight (List.mem_of_getElem? stands)

theorem sampled (whole : WholeRow weights) (chosen : weights[column]? = some 1)
    {sampler : Sampler Rat σ δ} (lawful : sampler.Lawful) (g : σ) :
    sampler.sampled weights g = column := by
  obtain ⟨share, stands, positive⟩ := lawful.picks weights whole.not_below whole.sum_eq_one g
  have one : share = 1 :=
    (whole.binary share (List.mem_of_getElem? stands)).resolve_left positive.ne'
  unfold Sampler.sampled
  rw [whole.shares]
  exact whole.column_unique chosen (one ▸ stands)

end WholeRow

/-! ## Columns -/

/-- What a column asks for. -/
def columnLoad (rows : List (Service Rat × List Rat)) (column : Nat) : Resources Rat :=
  Resources.ofFn fun d => (rows.map fun row => row.1.requirements.get d * row.2.getD column 0).sum

def columnServices (rows : List (Service Rat × List Rat)) (column : Nat) : List String :=
  (rows.filter fun row => row.2.getD column 0 = 1).map (·.1.name)

theorem column_load_cons (row : Service Rat × List Rat) (rest : List (Service Rat × List Rat))
    (column : Nat) (d : Dimension) :
    (columnLoad (row :: rest) column).get d =
      row.1.requirements.get d * row.2.getD column 0 + (columnLoad rest column).get d := by
  unfold columnLoad
  rw [Resources.get_of_fn, Resources.get_of_fn, List.map_cons, List.sum_cons]

theorem column_load_nonneg {rows : List (Service Rat × List Rat)}
    (whole : ∀ row ∈ rows, WholeRow row.2)
    (requirements : ∀ row ∈ rows, row.1.requirements.NotNegative) (column : Nat) (d : Dimension) :
    0 ≤ (columnLoad rows column).get d := by
  unfold columnLoad
  rw [Resources.get_of_fn]
  apply List.sum_nonneg
  intro share listed
  obtain ⟨row, member, rfl⟩ := List.mem_map.mp listed
  have needed := (Resources.not_negative_iff _).mp (requirements row member) d
  exact mul_nonneg (not_lt.mp needed) ((whole row member).weight_not_below column)

namespace Node

def hosting (n : Node Rat) (service : Service Rat) : Node Rat :=
  { n with usage := n.usage + service.requirements, hosted := n.hosted ++ [service.name] }

/-- The node with a column of services on it, whether or not there is room. -/
def bearing (n : Node Rat) (rows : List (Service Rat × List Rat)) (column : Nat) : Node Rat :=
  { n with usage := n.usage + columnLoad rows column,
           hosted := n.hosted ++ columnServices rows column }

theorem deploy_hosting {n : Node Rat} {service : Service Rat}
    (unhosted : n.hosts service.name = false) (room : n.canHost service.requirements = true) :
    n.deploy? service = some (n.hosting service) := by
  unfold deploy? reserve?
  rw [unhosted, room]
  rfl

variable {row : Service Rat × List Rat} {column : Nat}

theorem bearing_nothing (n : Node Rat) (column : Nat) : n.bearing [] column = n := by
  have idle : n.usage + columnLoad [] column = n.usage := by
    refine Resources.ext_get fun d => ?_
    rw [Resources.get_add, columnLoad, Resources.get_of_fn, List.map_nil, List.sum_nil, add_zero]
  unfold bearing columnServices
  rw [idle, List.filter_nil, List.map_nil, List.append_nil]

theorem bearing_hosted (n : Node Rat) (rest : List (Service Rat × List Rat))
    (chosen : row.2.getD column 0 = 1) :
    n.bearing (row :: rest) column = (n.hosting row.1).bearing rest column := by
  have usage : n.usage + columnLoad (row :: rest) column =
      n.usage + row.1.requirements + columnLoad rest column := by
    refine Resources.ext_get fun d => ?_
    simp only [Resources.get_add, column_load_cons, chosen, mul_one, add_assoc]
  unfold bearing hosting columnServices
  rw [usage, List.filter_cons_of_pos (by simpa using chosen), List.map_cons, List.append_assoc,
    List.singleton_append]

theorem bearing_passed (n : Node Rat) (rest : List (Service Rat × List Rat))
    (apart : row.2.getD column 0 = 0) : n.bearing (row :: rest) column = n.bearing rest column := by
  have load : columnLoad (row :: rest) column = columnLoad rest column := by
    refine Resources.ext_get fun d => ?_
    rw [column_load_cons, apart, mul_zero, zero_add]
  unfold bearing columnServices
  rw [load, List.filter_cons_of_neg (by simp only [apart]; decide)]

end Node

theorem Topology.replace_node {α : Type} {t : Topology α} (distinct : t.nodeNames.Nodup)
    {n : Node α} (stored : n ∈ t.nodes) (f : Node α → Node α) :
    (t.updateNode n.name fun _ => f n) = t.updateNode n.name f := by
  unfold updateNode
  congr 1
  refine List.map_congr_left fun m member => ?_
  split_ifs with named
  · rw [List.inj_on_of_nodup_map distinct member stored named]
  · rfl

namespace RoundingPlan

variable {plan : RoundingPlan Rat σ δ}

theorem place_first {service : Service Rat} {weights : List Rat} {s : RoundingState Rat σ}
    {n n' : Node Rat} {later : List (Node Rat)} {g : σ}
    (order : candidateOrder plan.sampler weights
      (plan.nodes (s.topology.undeployEverywhere service)) plan.tolerance s.generator =
        (.ok (n :: later), g))
    (fits : n.deploy? service = some n') :
    plan.place service weights s =
      (⟨(s.topology.undeployEverywhere service).updateNode n'.name fun _ => n', g⟩,
        .ok (some n'.name)) := by
  unfold place
  dsimp only
  rw [order]
  dsimp only
  rw [List.findSome?_cons, fits]

/-- A service with a whole row goes to the node of its one. -/
theorem place_whole_row (lawful : plan.sampler.Lawful) (below : plan.tolerance < 1)
    {service : Service Rat} {weights : List Rat} {s : RoundingState Rat σ}
    (distinct : s.topology.nodeNames.Nodup)
    (known : ∀ name ∈ plan.nodeNames, name ∈ s.topology.nodeNames)
    (unhosted : ∀ node, ¬ s.topology.Hosts node service.name) (whole : WholeRow weights)
    (width : weights.length = plan.nodeNames.length) {column : Nat} {name : String}
    (chosen : weights[column]? = some 1) (named : plan.nodeNames[column]? = some name)
    (room : ∀ n ∈ s.topology.nodes, n.name = name → n.canHost service.requirements = true) :
    plan.place service weights s =
      (⟨s.topology.updateNode name fun n => n.hosting service, (plan.sampler.draw s.generator).2⟩,
        .ok (some name)) := by
  have start := undeploy_everywhere_unhosted unhosted
  have count := plan.listed_node_count known
  have names := plan.listed_node_names known
  obtain ⟨n, stands, rfl⟩ : ∃ n, (plan.nodes s.topology)[column]? = some n ∧ n.name = name := by
    rw [← names, List.getElem?_map] at named
    exact Option.map_eq_some_iff.mp named
  have stored := (plan.listed_nodes_are_nodes _ n (List.mem_of_getElem? stands)).1
  have admitted : plan.sampler.admits (plan.nodes s.topology).length (sharesOf weights) = true := by
    rw [whole.shares, count, ← width]
    exact lawful.admits weights whole.not_below whole.sum_eq_one
  have order := massive_order (whole.massive below) admitted s.generator
  rw [whole.sampled chosen lawful, stands] at order
  have absent : n.hosts service.name = false :=
    Bool.eq_false_iff.mpr fun hosted => unhosted n.name ⟨n, stored, rfl, hosted⟩
  have fits := Node.deploy_hosting absent (room n stored rfl)
  have replaced : (s.topology.updateNode (n.hosting service).name fun _ => n.hosting service) =
      s.topology.updateNode n.name fun n => n.hosting service :=
    Topology.replace_node distinct stored fun n => n.hosting service
  rw [place_first (start.symm ▸ order) fits, start, replaced]
  rfl

structure WholeRows (plan : RoundingPlan Rat σ δ) (rows : List (Service Rat × List Rat)) :
    Prop where
  names : (rows.map (·.1.name)).Nodup
  requirements : ∀ row ∈ rows, row.1.requirements.NotNegative
  whole : ∀ row ∈ rows, WholeRow row.2
  width : ∀ row ∈ rows, row.2.length = plan.nodeNames.length

theorem WholeRows.tail {row : Service Rat × List Rat} {rest : List (Service Rat × List Rat)}
    (rows : plan.WholeRows (row :: rest)) : plan.WholeRows rest where
  names := (List.nodup_cons.mp rows.names).2
  requirements := (List.forall_mem_cons.mp rows.requirements).2
  whole := (List.forall_mem_cons.mp rows.whole).2
  width := (List.forall_mem_cons.mp rows.width).2

/-- The column of a node. A node that is not listed has one past the last. -/
def column (plan : RoundingPlan Rat σ δ) (n : Node Rat) : Nat :=
  plan.nodeNames.idxOf n.name

theorem column_iff (once : plan.nodeNames.Nodup) {column : Nat} {name : String}
    (named : plan.nodeNames[column]? = some name) (n : Node Rat) :
    plan.column n = column ↔ n.name = name := by
  obtain ⟨inside, rfl⟩ := List.getElem?_eq_some_iff.mp named
  unfold RoundingPlan.column
  constructor
  · rintro rfl
    exact (List.getElem_idxOf inside).symm
  · intro same
    rw [same, once.idxOf_getElem]

def filled (plan : RoundingPlan Rat σ δ) (rows : List (Service Rat × List Rat)) (t : Topology Rat) :
    Topology Rat :=
  { t with nodes := t.nodes.map fun n => n.bearing rows (plan.column n) }

theorem filled_nothing (plan : RoundingPlan Rat σ δ) (t : Topology Rat) : plan.filled [] t = t := by
  have same : t.nodes.map (fun n => n.bearing [] (plan.column n)) = t.nodes :=
    (List.map_congr_left fun n _ => n.bearing_nothing _).trans t.nodes.map_id
  unfold filled
  rw [same]

theorem filled_node_names (plan : RoundingPlan Rat σ δ) (rows : List (Service Rat × List Rat))
    (t : Topology Rat) : (plan.filled rows t).nodeNames = t.nodeNames :=
  List.map_map

theorem filled_next {row : Service Rat × List Rat} (rest : List (Service Rat × List Rat))
    (t : Topology Rat) (once : plan.nodeNames.Nodup) (whole : WholeRow row.2) {column : Nat}
    {name : String} (chosen : row.2[column]? = some 1)
    (named : plan.nodeNames[column]? = some name) :
    plan.filled rest (t.updateNode name fun n => n.hosting row.1) =
      plan.filled (row :: rest) t := by
  unfold filled Topology.updateNode
  congr 1
  rw [List.map_map]
  refine List.map_congr_left fun n _ => ?_
  rw [Function.comp_apply]
  split_ifs with here
  · have position := (column_iff once named n).mpr here
    exact (n.bearing_hosted rest (position ▸ WholeRow.weight_of_column chosen)).symm
  · have apart : plan.column n ≠ column := fun same => here ((column_iff once named n).mp same)
    exact (n.bearing_passed rest (whole.weight_of_other chosen apart)).symm

/-- On every listed node there is room for its column. -/
def ColumnsFit (plan : RoundingPlan Rat σ δ) (rows : List (Service Rat × List Rat))
    (t : Topology Rat) : Prop :=
  ∀ n ∈ t.nodes, n.name ∈ plan.nodeNames →
    ∀ d, n.usage.get d + (columnLoad rows (plan.column n)).get d ≤ n.capacity.get d

theorem columns_fit_iff {rows : List (Service Rat × List Rat)} {t : Topology Rat} :
    plan.ColumnsFit rows t ↔ ∀ n ∈ (plan.filled rows t).nodes, n.name ∈ plan.nodeNames →
      ∀ d, n.usage.get d ≤ n.capacity.get d := by
  unfold ColumnsFit filled
  rw [List.forall_mem_map]
  simp only [Node.bearing, Resources.get_add]

/-- A service that goes to its node leaves room there for the rest of the column. -/
theorem ColumnsFit.next {row : Service Rat × List Rat} {rest : List (Service Rat × List Rat)}
    {t : Topology Rat} (fit : plan.ColumnsFit (row :: rest) t) (once : plan.nodeNames.Nodup)
    (whole : WholeRow row.2) {column : Nat} {name : String} (chosen : row.2[column]? = some 1)
    (named : plan.nodeNames[column]? = some name) :
    plan.ColumnsFit rest (t.updateNode name fun n => n.hosting row.1) := by
  rw [columns_fit_iff] at fit ⊢
  rwa [filled_next rest t once whole chosen named]

theorem ColumnsFit.room {row : Service Rat × List Rat} {rest : List (Service Rat × List Rat)}
    {t : Topology Rat} (fit : plan.ColumnsFit (row :: rest) t)
    (rows : plan.WholeRows (row :: rest)) (once : plan.nodeNames.Nodup) {column : Nat}
    {name : String} (chosen : row.2[column]? = some 1)
    (named : plan.nodeNames[column]? = some name) {n : Node Rat} (stored : n ∈ t.nodes)
    (here : n.name = name) : n.canHost row.1.requirements = true := by
  have listed : n.name ∈ plan.nodeNames := here ▸ List.mem_of_getElem? named
  unfold Node.canHost
  rw [Resources.fits_in_iff]
  intro d
  have bound := fit n stored listed d
  have rest := column_load_nonneg rows.tail.whole rows.tail.requirements column d
  rw [(column_iff once named n).mpr here, column_load_cons, WholeRow.weight_of_column chosen,
    mul_one] at bound
  rw [Resources.get_add, add_zero]
  linarith

def assignedOnes (plan : RoundingPlan Rat σ δ) (rows : List (Service Rat × List Rat)) :
    List (String × Option String) :=
  rows.map fun row => (row.1.name, plan.nodeNames[row.2.idxOf 1]?)

namespace WholeRows

variable {rows : List (Service Rat × List Rat)}

theorem one_named (whole : plan.WholeRows rows) {row : Service Rat × List Rat}
    (member : row ∈ rows) : ∃ name, plan.nodeNames[row.2.idxOf 1]? = some name := by
  obtain ⟨inside, -⟩ := List.getElem?_eq_some_iff.mp (whole.whole row member).one_stands
  exact ⟨_, List.getElem?_eq_getElem (whole.width row member ▸ inside)⟩

theorem all_assigned (whole : plan.WholeRows rows) :
    ∀ entry ∈ plan.assignedOnes rows, ∃ node ∈ plan.nodeNames, entry.2 = some node := by
  intro entry listed
  obtain ⟨row, member, rfl⟩ := List.mem_map.mp listed
  obtain ⟨name, named⟩ := whole.one_named member
  exact ⟨name, List.mem_of_getElem? named, named⟩

theorem node_of_one (whole : plan.WholeRows rows) {row : Service Rat × List Rat}
    (member : row ∈ rows) {column : Nat} {node : String} (chosen : row.2[column]? = some 1)
    (named : plan.nodeNames[column]? = some node) :
    Assignments.nodeOf? ⟨plan.assignedOnes rows⟩ row.1.name = some node := by
  have own : row.2.idxOf 1 = column :=
    (whole.whole row member).column_unique chosen (whole.whole row member).one_stands
  have entry : (row.1.name, some node) ∈ plan.assignedOnes rows :=
    List.mem_map.mpr ⟨row, member, by rw [own, named]⟩
  have keys : (plan.assignedOnes rows).map (·.1) = rows.map (·.1.name) := List.map_map
  have found := (OrderedMap.get_eq_some_iff (keys.symm ▸ whole.names) _ _).mpr entry
  exact congrArg Option.join found

end WholeRows

/-- Rows that are whole and fit are placed where their ones are, and whatever is drawn, the nodes
bear their columns. -/
theorem place_all_whole_rows (lawful : plan.sampler.Lawful) (below : plan.tolerance < 1)
    (once : plan.nodeNames.Nodup) {rows : List (Service Rat × List Rat)}
    (whole : plan.WholeRows rows) {t : Topology Rat} (distinct : t.nodeNames.Nodup)
    (known : ∀ name ∈ plan.nodeNames, name ∈ t.nodeNames)
    (unhosted : ∀ row ∈ rows, ∀ node, ¬ t.Hosts node row.1.name) (fit : plan.ColumnsFit rows t)
    (g : σ) :
    plan.placeAll rows ⟨t, g⟩ =
      (⟨plan.filled rows t, plan.sampler.afterDraws rows.length g⟩,
        .ok (plan.assignedOnes rows)) := by
  induction rows generalizing t g with
  | nil =>
      rw [plan.filled_nothing]
      rfl
  | cons row rest ih =>
      have wholeRow := whole.whole row List.mem_cons_self
      have chosen := wholeRow.one_stands
      obtain ⟨name, named⟩ := whole.one_named List.mem_cons_self
      have placed := place_whole_row (s := ⟨t, g⟩) lawful below distinct known
        (unhosted row List.mem_cons_self) wholeRow (whole.width row List.mem_cons_self) chosen named
        fun n stored here => fit.room whole once chosen named stored here
      have rehosted := plan.place_rehosted row.1 row.2 _ _ _ distinct placed
      -- What the service takes of its node is no longer asked for by the rows that follow.
      have afterwards := ih whole.tail (rehosted.names ▸ distinct) (rehosted.names ▸ known)
        (rehosted.rest_unhosted whole.names unhosted) (fit.next once wholeRow chosen named)
        (plan.sampler.draw g).2
      rw [placeAll, placed]
      dsimp only
      rw [afterwards, filled_next rest t once wholeRow chosen named, assignedOnes, assignedOnes,
        List.map_cons, named]
      rfl

end RoundingPlan

/-! ## Rounding -/

theorem Fractions.weights_of_entry {x : Fractions Rat} {i j : Nat} {weights : List Rat}
    (weighed : x.rows[i]? = some weights) (one : x.entry i j = 1) : weights[j]? = some 1 := by
  have row : x.rows.getD i [] = weights := by
    rw [List.getD_eq_getElem?_getD, weighed, Option.getD_some]
  unfold Fractions.entry at one
  rw [row, List.getD_eq_getElem?_getD] at one
  cases stands : weights[j]? with
  | none =>
      rw [stands] at one
      exact absurd one zero_ne_one
  | some weight =>
      rw [stands] at one
      exact congrArg some one

theorem RoundingInput.whole_rows {plan : RoundingPlan Rat σ δ} {input : RoundingInput Rat}
    {t : Topology Rat} (accepted : input.fault? plan.nodeNames t = none)
    (integral : input.fractions.Integral)
    (requirements : ∀ service ∈ input.services, service.requirements.NotNegative) :
    plan.WholeRows (input.services.zip input.fractions.rows) := by
  obtain ⟨sameLength, once, -⟩ := RoundingInput.accepted accepted
  constructor
  · rwa [RoundingInput.row_names sameLength]
  · exact fun row member => requirements row.1 (List.of_mem_zip member).1
  · exact fun row member => integral.whole row.2 (List.of_mem_zip member).2
  · intro row member
    rw [integral.rectangular row.2 (List.of_mem_zip member).2]
    exact RoundingInput.accepted_width accepted

/-- Integral fractions whose columns fit are rounded to themselves. Whatever is drawn, each node is
left with its usage increased by what its column asks for and with the services of its column, even
when the routing ends in a fault; a node that is not listed has a column past the last one, which
asks for nothing. A placement that is returned has every service on the node of its one and reports
no failure to place. One is returned when there are no demands, or when their paths can be searched
for. -/
theorem integral_fractions_rounded_to_themselves (plan : RoundingPlan Rat σ δ)
    (lawful : plan.sampler.Lawful) (below : plan.tolerance < 1) (once : plan.nodeNames.Nodup)
    (input : RoundingInput Rat) (integral : input.fractions.Integral)
    (requirements : ∀ service ∈ input.services, service.requirements.NotNegative)
    (s : RoundingState Rat σ) (distinct : s.topology.nodeNames.Nodup)
    (accepted : input.fault? plan.nodeNames s.topology = none)
    (unhosted : ∀ service ∈ input.services, ∀ node, ¬ s.topology.Hosts node service.name)
    (fit : plan.ColumnsFit (input.services.zip input.fractions.rows) s.topology) :
    (roundFractions plan input s).1.topology.nodes = s.topology.nodes.map (fun n =>
      n.bearing (input.services.zip input.fractions.rows) (plan.column n)) ∧
    (∀ s' placement, roundFractions plan input s = (s', .ok placement) →
      placement.placementFailures = [] ∧
      ∀ i j service node, input.services[i]? = some service → plan.nodeNames[j]? = some node →
        input.fractions.entry i j = 1 → placement.nodeOf? service.name = some node) ∧
    ((input.demands = [] ∨ ∃ weight : PathWeight, input.weight = weight.name ∧
        (weight = .hops ∨ 0 ≤ s.topology.tieTolerance)) →
      ∃ s' placement, roundFractions plan input s = (s', .ok placement)) := by
  obtain ⟨sameLength, -, known⟩ := RoundingInput.accepted accepted
  have whole : plan.WholeRows (input.services.zip input.fractions.rows) :=
    RoundingInput.whole_rows accepted integral requirements
  have placing := plan.place_all_whole_rows lawful below once whole distinct known
    (fun row member => unhosted row.1 (List.of_mem_zip member).1) fit s.generator
  refine ⟨?_, ?_, ?_⟩
  · have kept := (round_keeps_placed accepted).nodes
    rw [placing] at kept
    exact kept
  · intro s' placement returned
    obtain ⟨-, placed, assignments, routing, placing', -, rfl⟩ := round_returned returned
    cases placing.symm.trans placing'
    constructor
    · rw [Placement.ofParts, List.filterMap_eq_nil_iff]
      rintro ⟨name, host⟩ listed
      obtain ⟨node, -, assigned⟩ := whole.all_assigned _ listed
      cases assigned
      rfl
    · intro i j service node listed named one
      obtain ⟨inside, -⟩ := List.getElem?_eq_some_iff.mp listed
      have weighed : input.fractions.rows[i]? = some input.fractions.rows[i] :=
        List.getElem?_eq_getElem (sameLength ▸ inside)
      have row : (service, input.fractions.rows[i]) ∈ input.services.zip input.fractions.rows :=
        List.mem_of_getElem? (List.getElem?_zip_eq_some.mpr ⟨listed, weighed⟩)
      exact whole.node_of_one row (Fractions.weights_of_entry weighed one) named
  · intro searchable
    apply round_returns accepted placing
    · intro service node assigned
      obtain ⟨name, listed, same⟩ := whole.all_assigned _ (Assignments.assigned_entry assigned)
      cases same
      rw [plan.filled_node_names]
      exact known node listed
    · rcases searchable with none | ⟨weight, named, tolerable⟩
      · exact Or.inl none
      · exact Or.inr ⟨weight, named, tolerable⟩

def tightTriple : Topology Rat where
  nodes := [⟨"a", ⟨5, 5, 0, 0⟩, ⟨2, 2, 0, 0⟩, ["old"]⟩, ⟨"b", ⟨6, 4, 0, 0⟩, ⟨1, 0, 0, 0⟩, []⟩,
    ⟨"c", ⟨1, 1, 0, 0⟩, ⟨1, 1, 0, 0⟩, ["new"]⟩]
  links := [⟨"ab", "a", "b", 1, 1, 0⟩]
  canonical := [("a", "a"), ("b", "b"), ("c", "c")]
  tieTolerance := -1

def tightPlan : RoundingPlan Rat (Fin 8) Rat :=
  ⟨Sampler.ofEighths, ["b", "a"], 1 / 2⟩

def tightInput : RoundingInput Rat where
  fractions := ⟨2, [[1, 0], [0, 1], [1, 0]]⟩
  services := [⟨"s", 2, 1, 0, 0, 0, 0⟩, ⟨"t", 3, 3, 0, 0, 0, 0⟩, ⟨"u", 3, 3, 0, 0, 0, 0⟩]
  demands := [⟨"s", "t", 2⟩]
  weight := "hops"

theorem tight_columns_rounded_to_themselves : ∃ s' placement,
    roundFractions tightPlan tightInput ⟨tightTriple, 3⟩ = (s', .ok placement) ∧
    s'.topology.nodes = [⟨"a", ⟨5, 5, 0, 0⟩, ⟨5, 5, 0, 0⟩, ["old", "t"]⟩,
      ⟨"b", ⟨6, 4, 0, 0⟩, ⟨6, 4, 0, 0⟩, ["s", "u"]⟩,
      ⟨"c", ⟨1, 1, 0, 0⟩, ⟨1, 1, 0, 0⟩, ["new"]⟩] ∧
    placement.placementFailures = [] ∧ placement.nodeOf? "u" = some "b" := by
  have requirements : ∀ service ∈ tightInput.services,
      service.requirements.isNegative = false := by decide +kernel
  have unhosted : ∀ service ∈ tightInput.services, ∀ n ∈ tightTriple.nodes,
      n.hosts service.name = false := by decide
  have fit : ∀ n ∈ tightTriple.nodes, n.name ∈ tightPlan.nodeNames →
      (n.usage + columnLoad (tightInput.services.zip tightInput.fractions.rows)
        (tightPlan.column n)).fitsIn n.capacity 0 = true := by decide +kernel
  obtain ⟨nodes, assigned, returned⟩ := integral_fractions_rounded_to_themselves tightPlan
    Sampler.of_eighths_lawful (by decide +kernel) (by decide) tightInput
    ⟨by decide, fun row listed => ⟨by revert row; decide +kernel, by revert row; decide +kernel⟩⟩
    requirements ⟨tightTriple, 3⟩ (by decide) (by decide)
    (fun service listed node ⟨n, stored, _, hosted⟩ =>
      Bool.false_ne_true ((unhosted service listed n stored).symm.trans hosted))
    (fun n stored listed d => by
      have bound := (Resources.fits_in_iff _ _ _).mp (fit n stored listed) d
      rwa [Resources.get_add, add_zero] at bound)
  obtain ⟨s', placement, rounded⟩ := returned (.inr ⟨.hops, rfl, .inl rfl⟩)
  obtain ⟨failures, hosts⟩ := assigned s' placement rounded
  rw [rounded] at nodes
  refine ⟨s', placement, rounded, nodes.trans (by decide +kernel), failures, ?_⟩
  exact hosts 2 0 ⟨"u", 3, 3, 0, 0, 0, 0⟩ "b" rfl rfl rfl

end EdgePlacement
