import NaturalDeduction.Proof.Diagram
import NaturalDeduction.Proofs.Nesting

/-!
# Clusters of a diagram

A diagram is drawn by going through the lines with a running index. At a hypothesis that is deeper
than the cluster at hand, a new cluster is drawn from the same index up to the end of the subproof,
and the index goes on behind it. Since no subproof reaches beyond one around it, every line is drawn
once, in the cluster of the innermost subproof that contains it.

## Main definitions

* `Scope.IsInnermost`: the innermost nested subproof around a line, if there is one
* `Layer.Draws`: drawing a range of lines with a running index
* `Layer.nodes`, `Layer.clusters`, `Layer.homes`: what a layer holds
* `Diagram.Depicts`: what a diagram of some lines consists of

## Main statements

* `Layer.draws_ofLines`: the index always finds a line and a subproof, and comes to an end
* `Proof.diagram_depicts`: the diagram of a proof depicts its lines
-/

namespace NaturalDeduction

namespace Scope

variable {lines : List Line} {l : Line} {i k p first last stop : Nat} {depth : Int}

/-- A subproof is the innermost around a line if it contains the line and lies within every other
that does. There is none around a line that no nested subproof contains. -/
def IsInnermost (lines : List Line) (index : Nat) : Option Nat → Prop
  | none => ∀ p, encloses lines p index = false
  | some opener =>
    encloses lines opener index ∧
      ∀ p, encloses lines p index → ∀ k, encloses lines opener k → encloses lines p k

/-! ## Stretches of lines -/

/-- The lines from an index up to another one, which is excluded, with their indices. -/
def stretch (lines : List Line) (first stop : Nat) : List (Line × Nat) :=
  (lines.zipIdx.drop first).take (stop - first)

theorem stretch_zero_length (lines : List Line) : stretch lines 0 lines.length = lines.zipIdx := by
  rw [stretch, List.drop_zero, Nat.sub_zero, List.take_of_length_le (by simp)]

theorem stretch_of_le (h : stop ≤ first) : stretch lines first stop = [] := by
  simp [stretch, Nat.sub_eq_zero_of_le h]

theorem stretch_eq_cons (hl : lines[first]? = some l) (h : first < stop) :
    stretch lines first stop = (l, first) :: stretch lines (first + 1) stop := by
  have hzip : lines.zipIdx[first]? = some (l, first) := by simp [List.getElem?_zipIdx, hl]
  obtain ⟨n, rfl⟩ := Nat.exists_eq_add_of_lt h
  rw [stretch, List.drop_eq_getElem?_toList_append, hzip, stretch,
    show first + n + 1 - first = n + 1 by omega, show first + n + 1 - (first + 1) = n by omega]
  rfl

theorem stretch_append (h₁ : first ≤ k) (h₂ : k ≤ stop) :
    stretch lines first k ++ stretch lines k stop = stretch lines first stop := by
  rw [stretch, stretch, stretch, show stop - first = (k - first) + (stop - k) by omega,
    List.take_add, List.drop_drop, Nat.add_sub_cancel' h₁]

theorem mem_stretch : (l, i) ∈ stretch lines first stop ↔
    first ≤ i ∧ i < stop ∧ lines[i]? = some l := by
  rw [stretch, List.mem_iff_getElem?]
  simp only [List.getElem?_take, Option.ite_none_right_eq_some, List.getElem?_drop,
    List.getElem?_zipIdx, Option.map_eq_some_iff, Prod.mk.injEq]
  constructor
  · rintro ⟨k, hk, l, hl, rfl, rfl⟩
    exact ⟨by omega, by omega, by simpa using hl⟩
  · rintro ⟨hi, hstop, hl⟩
    refine ⟨i - first, by omega, l, ?_, rfl, by omega⟩
    rw [Nat.add_sub_cancel' hi, hl]

/-- The lines inside a scope come before the first line that closes it. -/
theorem Reaches.divide_stretch (h : Reaches lines p last depth) (hlast : last < stop)
    (hstop : stop ≤ lines.length) :
    (stretch lines (p + 1) stop).takeWhile (fun m => !m.1.closes depth) =
        stretch lines (p + 1) (last + 1) ∧
      (stretch lines (p + 1) stop).dropWhile (fun m => !m.1.closes depth) =
        stretch lines (last + 1) stop := by
  have hinside : ∀ m ∈ stretch lines (p + 1) (last + 1), (!m.1.closes depth) = true := by
    rintro ⟨m, k⟩ hm
    obtain ⟨hpk, hk, hm⟩ := mem_stretch.1 hm
    simp [h.inside k m hpk (by omega) hm]
  rw [← stretch_append (Nat.succ_le_succ h.le) hlast, List.takeWhile_append_of_pos hinside,
    List.dropWhile_append_of_pos hinside]
  -- What is left is empty or starts with the line that closes the scope.
  obtain hnext | hnext := Nat.lt_or_ge (last + 1) stop
  · have hm : lines[last + 1]? = some lines[last + 1] := List.getElem?_eq_getElem _
    simp [stretch_eq_cons hm hnext, h.ends.closes _ hm]
  · simp [stretch_of_le hnext]

end Scope

/-! ## Layers -/

namespace Layer

open Scope

variable {lines : List Line} {l : Line} {index stop first last : Nat} {depth : Int}
  {layer inner rest : Layer}

/-- Drawing the lines from an index up to another one, which is excluded, inside a cluster of the
given depth. There is no rule for an index without a line, nor for an opener without a subproof. -/
inductive Draws (lines : List Line) : Nat → Nat → Int → Layer → Prop
  | done {index stop : Nat} {depth : Int} (hstop : stop ≤ index) : Draws lines index stop depth nil
  | node {index stop : Nat} {depth : Int} {l : Line} {rest : Layer} (hstop : index < stop)
      (hl : lines[index]? = some l) (hopen : l.opens depth = false)
      (hrest : Draws lines (index + 1) stop depth rest) :
      Draws lines index stop depth (node index l rest)
  /-- The cluster is drawn from the index of its opener, which becomes its first node. -/
  | cluster {index stop first last : Nat} {depth : Int} {l : Line} {inner rest : Layer}
      (hstop : index < stop) (hl : lines[index]? = some l) (hopen : l.opens depth)
      (hspan : span? lines index = some (first, last))
      (hinner : Draws lines index (last + 1) l.depth inner)
      (hrest : Draws lines (last + 1) stop depth rest) :
      Draws lines index stop depth (cluster index inner rest)

/-- The nodes of a layer and of the clusters in it, in order. -/
def nodes : Layer → List (Line × Nat)
  | nil => []
  | node index l rest => (l, index) :: rest.nodes
  | cluster _ inner rest => inner.nodes ++ rest.nodes

/-- The clusters of a layer and of the clusters in it, each with its own layer. -/
def clusters : Layer → List (Nat × Layer)
  | nil => []
  | node _ _ rest => rest.clusters
  | cluster opener inner rest => (opener, inner) :: (inner.clusters ++ rest.clusters)

/-- The nodes of a layer, each with the cluster that it stands in directly. -/
def homes (home : Option Nat) : Layer → List (Nat × Option Nat)
  | nil => []
  | node index _ rest => (index, home) :: rest.homes home
  | cluster opener inner rest => inner.homes (some opener) ++ rest.homes home

theorem map_fst_homes (home : Option Nat) (layer : Layer) :
    (layer.homes home).map Prod.fst = layer.nodes.map Prod.snd := by
  induction layer generalizing home with
  | nil => rfl
  | node index l rest ih => simp [homes, nodes, ih]
  | cluster opener inner rest ihinner ihrest => simp [homes, nodes, ihinner, ihrest]

/-! ## Drawing -/

/-- There is only one way to draw some lines. -/
theorem Draws.unique {layer' : Layer} (h : Draws lines index stop depth layer)
    (h' : Draws lines index stop depth layer') : layer = layer' := by
  induction h generalizing layer' with
  | done hstop =>
    cases h' with
    | done => rfl
    | node hlt => omega
    | cluster hlt => omega
  | node hstop hl hopen _ ih =>
    cases h' with
    | done hle => omega
    | node _ hl' _ hrest =>
      obtain rfl := Option.some.inj (hl.symm.trans hl')
      rw [ih hrest]
    | cluster _ hl' hopen' =>
      obtain rfl := Option.some.inj (hl.symm.trans hl')
      rw [hopen] at hopen'
      contradiction
  | cluster hstop hl hopen hspan _ _ ihinner ihrest =>
    cases h' with
    | done hle => omega
    | node _ hl' hopen' =>
      obtain rfl := Option.some.inj (hl.symm.trans hl')
      rw [hopen] at hopen'
      contradiction
    | cluster _ hl' _ hspan' hinner hrest =>
      obtain rfl := Option.some.inj (hl.symm.trans hl')
      obtain ⟨-, rfl⟩ := Prod.mk.inj (Option.some.inj (hspan.symm.trans hspan'))
      rw [ihinner hinner, ihrest hrest]

theorem ofLines_cons (depth : Int) (l : Line) (index : Nat) (ls : List (Line × Nat)) :
    ofLines depth ((l, index) :: ls) =
      if l.opens depth then
        cluster index (node index l (ofLines l.depth (ls.takeWhile fun m => !m.1.closes l.depth)))
          (ofLines depth (ls.dropWhile fun m => !m.1.closes l.depth))
      else node index l (ofLines depth ls) := by
  rw [ofLines]
  rfl

/-- The lines before the end of a scope can be drawn: the index always finds a line, and a subproof
at every line that opens a cluster. -/
theorem draws_ofLines (index : Nat) (hends : Ends lines stop depth) :
    Draws lines index stop depth (ofLines depth (stretch lines index stop)) := by
  induction hn : stop - index using Nat.strong_induction_on generalizing index stop depth with
  | _ n ih =>
    obtain hstop | hstop := Nat.lt_or_ge index stop
    · obtain ⟨l, hl⟩ : ∃ l, lines[index]? = some l :=
        ⟨_, List.getElem?_eq_getElem (hstop.trans_le hends.le_length)⟩
      rw [stretch_eq_cons hl hstop]
      cases hopen : l.opens depth with
      | false =>
        rw [ofLines_cons, if_neg (by simp [hopen])]
        exact .node hstop hl hopen (ih _ (by omega) _ hends rfl)
      | true =>
        obtain ⟨ha, hd⟩ := Line.opens_iff.1 hopen
        have hspan := span?_eq_some hl ha
        have hreach := (reaches_of_span?_eq_some hl hspan).2
        have hlast := hreach.lt_of_ends hstop hends hd.le
        have hle := hreach.le
        obtain ⟨hinner, hrest⟩ := hreach.divide_stretch hlast hends.le_length
        rw [ofLines_cons, if_pos hopen, hinner, hrest]
        refine .cluster hstop hl hopen hspan ?_ (ih _ (by omega) _ hends rfl)
        exact .node (by omega) hl (by simp [Line.opens]) (ih _ (by omega) _ hreach.ends rfl)
    · rw [stretch_of_le hstop, ofLines]
      exact .done hstop

/-! ## What is drawn -/

/-- A cluster is drawn within the range of lines at hand. -/
theorem reaches_of_opens (hstop : index < stop) (hends : Ends lines stop depth)
    (hl : lines[index]? = some l) (hopen : l.opens depth)
    (hspan : span? lines index = some (first, last)) :
    Reaches lines index last l.depth ∧ last < stop := by
  have hreach := (reaches_of_span?_eq_some hl hspan).2
  exact ⟨hreach, hreach.lt_of_ends hstop hends (Line.opens_iff.1 hopen).2.le⟩

/-- Every line is drawn once, in order. -/
theorem Draws.nodes_eq (h : Draws lines index stop depth layer) (hends : Ends lines stop depth) :
    layer.nodes = stretch lines index stop := by
  induction h with
  | done hstop => rw [nodes, stretch_of_le hstop]
  | node hstop hl _ _ ih => rw [nodes, ih hends, stretch_eq_cons hl hstop]
  | cluster hstop hl hopen hspan _ _ ihinner ihrest =>
    obtain ⟨hreach, hlast⟩ := reaches_of_opens hstop hends hl hopen hspan
    rw [nodes, ihinner hreach.ends, ihrest hends,
      stretch_append (Nat.le_succ_of_le hreach.le) hlast]

/-- Inside a subproof, the lines that open another one are those that would open one around it. -/
theorem filter_opens_stretch (hl : lines[index]? = some l) (hopen : l.opens depth)
    (hreach : Reaches lines index last l.depth) :
    (stretch lines index (last + 1)).filter (·.1.opens depth) =
      (l, index) :: (stretch lines index (last + 1)).filter (·.1.opens l.depth) := by
  have hself : l.opens l.depth = false := by simp [Line.opens]
  rw [stretch_eq_cons hl (Nat.lt_succ_of_le hreach.le)]
  simp only [List.filter_cons, hopen, hself, ↓reduceIte, Bool.false_eq_true, List.cons.injEq,
    true_and]
  refine List.filter_congr ?_
  rintro ⟨m, k⟩ hm
  obtain ⟨hk, hlast, hm⟩ := mem_stretch.1 hm
  have hinner := Line.opens_of_closes_eq_false (hreach.inside k m hk (by omega) hm)
  have hd := (Line.opens_iff.1 hopen).2
  rw [Bool.eq_iff_iff, Line.opens_iff, hinner]
  refine ⟨And.left, fun ha => ⟨ha, ?_⟩⟩
  rw [ha, Line.opens_iff] at hinner
  exact hd.trans hinner.2

/-- A cluster is drawn for each line that opens one, and for no other line. -/
theorem Draws.openers_eq (h : Draws lines index stop depth layer) (hends : Ends lines stop depth) :
    layer.clusters.map Prod.fst =
      ((stretch lines index stop).filter (·.1.opens depth)).map Prod.snd := by
  induction h with
  | done hstop => simp [clusters, stretch_of_le hstop]
  | node hstop hl hopen _ ih =>
    rw [clusters, ih hends, stretch_eq_cons hl hstop, List.filter_cons_of_neg (by simp [hopen])]
  | @cluster index stop _ last depth l _ _ hstop hl hopen hspan _ _ ihinner ihrest =>
    obtain ⟨hreach, hlast⟩ := reaches_of_opens hstop hends hl hopen hspan
    have hsplit : stretch lines index (last + 1) ++ stretch lines (last + 1) stop =
        stretch lines index stop := stretch_append (Nat.le_succ_of_le hreach.le) hlast
    rw [clusters, List.map_cons, List.map_append, ihinner hreach.ends, ihrest hends, ← hsplit,
      List.filter_append, filter_opens_stretch hl hopen hreach]
    simp

/-- A cluster holds the lines of its subproof. -/
theorem Draws.nodes_of_mem_clusters {opener : Nat} (h : Draws lines index stop depth layer)
    (hmem : (opener, inner) ∈ layer.clusters) :
    ∃ last, span? lines opener = some (opener, last) ∧
      inner.nodes = stretch lines opener (last + 1) := by
  induction h with
  | done => simp [clusters] at hmem
  | node _ _ _ _ ih => exact ih hmem
  | cluster _ hl hopen hspan hinner _ ihinner ihrest =>
    obtain heq | hmem := List.mem_cons.1 hmem
    · obtain ⟨rfl, rfl⟩ := Prod.mk.inj heq
      obtain ⟨rfl, hreach⟩ := reaches_of_span?_eq_some hl hspan
      exact ⟨_, hspan, hinner.nodes_eq hreach.ends⟩
    · exact (List.mem_append.1 hmem).elim ihinner ihrest

theorem Draws.mem_range_of_mem_homes {home outer : Option Nat} {j : Nat}
    (h : Draws lines index stop depth layer) (hends : Ends lines stop depth)
    (hmem : (j, home) ∈ layer.homes outer) : index ≤ j ∧ j < stop := by
  have hj : j ∈ (layer.homes outer).map Prod.fst := List.mem_map_of_mem hmem
  rw [map_fst_homes, h.nodes_eq hends, List.mem_map] at hj
  obtain ⟨⟨l, _⟩, hl, rfl⟩ := hj
  obtain ⟨hle, hlt, -⟩ := mem_stretch.1 hl
  exact ⟨hle, hlt⟩

/-- A node stands in its innermost subproof, or else directly in the cluster at hand, if no line of
the range opens a subproof around it. -/
theorem Draws.isInnermost_of_mem_homes {home outer : Option Nat} {j : Nat}
    (h : Draws lines index stop depth layer) (hends : Ends lines stop depth) (hdepth : 0 ≤ depth)
    (hmem : (j, home) ∈ layer.homes outer) :
    IsInnermost lines j home ∨ home = outer ∧
      ∀ p l, index ≤ p → lines[p]? = some l → l.opens depth → ¬ encloses lines p j := by
  induction h generalizing outer with
  | done => simp [homes] at hmem
  | @node index stop depth l rest hstop hl hopen hrest ih =>
    have hself {p : Nat} {m : Line} (hm : lines[p]? = some m) (hopen' : m.opens depth) :
        p ≠ index := by
      rintro rfl
      obtain rfl := Option.some.inj (hl.symm.trans hm)
      simp [hopen] at hopen'
    obtain heq | hmem := List.mem_cons.1 hmem
    · obtain ⟨rfl, rfl⟩ := Prod.mk.inj heq
      refine .inr ⟨rfl, fun p m hp hm hopen' hencl => ?_⟩
      exact hself hm hopen' (Nat.le_antisymm (le_of_encloses hencl) hp)
    · refine (ih hends hdepth hmem).imp_right fun ⟨heq, hnone⟩ => ⟨heq, fun p m hp hm hopen' => ?_⟩
      exact hnone p m (Nat.lt_of_le_of_ne hp (hself hm hopen').symm) hm hopen'
  | @cluster index stop _ last depth l _ _ hstop hl hopen hspan hinner hrest ihinner ihrest =>
    obtain ⟨hreach, hlast⟩ := reaches_of_opens hstop hends hl hopen hspan
    obtain ⟨ha, hd⟩ := Line.opens_iff.1 hopen
    have hlines (k : Nat) : encloses lines index k ↔ index ≤ k ∧ k ≤ last :=
      encloses_iff_of_reaches hl (Line.opens_iff.2 ⟨ha, by omega⟩) hreach
    obtain hmem | hmem := List.mem_append.1 hmem
    · refine .inl ((ihinner hreach.ends (by omega) hmem).elim id ?_)
      rintro ⟨rfl, hnone⟩
      obtain ⟨hle, hlt⟩ := hinner.mem_range_of_mem_homes hreach.ends hmem
      refine ⟨(hlines j).2 ⟨hle, by omega⟩, fun p hp k hk => ?_⟩
      -- A subproof around the line was opened before this one, or deeper inside it.
      obtain hpi | hpi := le_or_gt p index
      · exact encloses_trans (encloses_of_le hp hpi hle) hk
      · obtain ⟨m, hm, ham, -⟩ := exists_of_encloses hp
        have hpj := le_of_encloses hp
        have hdeeper := Line.opens_of_closes_eq_false (hreach.inside p m hpi (by omega) hm)
        exact absurd hp (hnone p m hpi.le hm (hdeeper.trans ham))
    · refine (ihrest hends hdepth hmem).imp_right fun ⟨heq, hnone⟩ => ⟨heq, ?_⟩
      intro p m hp hm hopen' hencl
      obtain ⟨hle, -⟩ := hrest.mem_range_of_mem_homes hends hmem
      obtain hpl | hpl := le_or_gt p last
      · have := (hlines j).1 (encloses_trans ((hlines p).2 ⟨hp, hpl⟩) hencl)
        omega
      · exact hnone p m hpl hm hopen' hencl

end Layer

/-! ## Diagrams -/

namespace Diagram

open Scope

variable {lines : List Line} {l : Line} {i first stop : Nat}

/-- What a diagram of some lines consists of. -/
structure Depicts (d : Diagram) (lines : List Line) : Prop where
  /-- Drawing the lines with a running index comes to an end, with this result and no other. -/
  drawn : ∀ layer, Layer.Draws lines 0 lines.length 0 layer ↔ layer = d.layer
  /-- There is one node for each line, in order. -/
  nodes : d.layer.nodes = lines.zipIdx
  /-- There is one cluster for each hypothesis of a nested subproof, in order. -/
  openers : d.layer.clusters.map Prod.fst =
    (lines.zipIdx.filter fun m => m.1.isAssumption && 0 < m.1.depth).map Prod.snd
  /-- A cluster holds the lines of its subproof. -/
  contents : ∀ opener inner, (opener, inner) ∈ d.layer.clusters →
    ∃ last, span? lines opener = some (opener, last) ∧
      inner.nodes = stretch lines opener (last + 1)
  /-- Every line has one place. -/
  indices : (d.layer.homes none).map Prod.fst = List.range lines.length
  /-- The place of a line is the cluster of the innermost subproof that contains it. -/
  homes : ∀ index home, (index, home) ∈ d.layer.homes none → IsInnermost lines index home
  /-- The edges are in the order of the citing lines. -/
  sorted : d.edges.Pairwise fun e f => e.2 ≤ f.2
  /-- Every edge leads to a line. -/
  citing : ∀ e ∈ d.edges, e.2 < lines.length
  /-- The edges to a line come from the lines that it cites, in the same order. -/
  cited : ∀ i l, lines[i]? = some l →
    (d.edges.filter (·.2 = i)).map Prod.fst = l.justification.cited

/-- The edges to a line. -/
def citations (m : Line × Nat) : List (Int × Nat) :=
  m.1.justification.cited.map fun cited => (cited, m.2)

theorem snd_of_mem_citations {m : Line × Nat} {e : Int × Nat} (h : e ∈ citations m) :
    e.2 = m.2 := by
  obtain ⟨_, -, rfl⟩ := List.mem_map.1 h
  rfl

/-- The edges to the lines of a stretch lead into it. -/
theorem mem_range_of_mem_citations {e : Int × Nat}
    (h : e ∈ (stretch lines first stop).flatMap citations) : first ≤ e.2 ∧ e.2 < stop := by
  obtain ⟨⟨l, k⟩, hm, he⟩ := List.mem_flatMap.1 h
  obtain ⟨hle, hlt, -⟩ := mem_stretch.1 hm
  rw [snd_of_mem_citations he]
  exact ⟨hle, hlt⟩

theorem pairwise_citations (lines : List Line) :
    (lines.zipIdx.flatMap citations).Pairwise fun e f => e.2 ≤ f.2 := by
  have hindices : lines.zipIdx.Pairwise fun m n => m.2 < n.2 := by
    rw [← List.pairwise_map, List.zipIdx_map_snd]
    exact List.pairwise_lt_range'
  refine List.pairwise_flatMap.2 ⟨fun m _ => ?_, hindices.imp fun hlt e he f hf => ?_⟩
  · exact List.pairwise_map.2 (List.pairwise_of_forall fun _ _ => le_rfl)
  · rw [snd_of_mem_citations he, snd_of_mem_citations hf]
    exact hlt.le

theorem filter_citations (hl : lines[i]? = some l) :
    (lines.zipIdx.flatMap citations).filter (·.2 = i) = citations (l, i) := by
  have hi := lt_length_of_getElem? hl
  have hothers {first stop : Nat} (h : stop ≤ i ∨ i < first) :
      ((stretch lines first stop).flatMap citations).filter (·.2 = i) = [] := by
    refine List.filter_eq_nil_iff.2 fun e he => ?_
    have := mem_range_of_mem_citations he
    simp only [decide_eq_true_eq]
    omega
  have hself : (citations (l, i)).filter (·.2 = i) = citations (l, i) :=
    List.filter_eq_self.2 fun e he => by simp [snd_of_mem_citations he]
  rw [← stretch_zero_length, ← stretch_append (Nat.zero_le i) hi.le, stretch_eq_cons hl hi,
    List.flatMap_append, List.flatMap_cons, List.filter_append, List.filter_append,
    hothers (.inl le_rfl), hself, hothers (.inr (Nat.lt_succ_self i)), List.nil_append,
    List.append_nil]

end Diagram

open Scope in
/-- The diagram of a proof depicts its lines, whatever their depths are. -/
theorem Proof.diagram_depicts (p : Proof) : p.diagram.Depicts p.lines := by
  have hends := ends_length p.lines 0
  have hdraws : Layer.Draws p.lines 0 p.lines.length 0 p.diagram.layer := by
    have h := Layer.draws_ofLines 0 hends
    rwa [stretch_zero_length] at h
  have hnodes : p.diagram.layer.nodes = p.lines.zipIdx := by
    rw [hdraws.nodes_eq hends, stretch_zero_length]
  constructor
  case drawn => exact fun layer => ⟨fun h => h.unique hdraws, fun h => h ▸ hdraws⟩
  case nodes => exact hnodes
  case openers =>
    rw [hdraws.openers_eq hends, stretch_zero_length]
    rfl
  case contents => exact fun opener inner => hdraws.nodes_of_mem_clusters
  case indices => rw [Layer.map_fst_homes, hnodes, List.zipIdx_map_snd, List.range_eq_range']
  case homes =>
    intro index home hmem
    refine (hdraws.isInnermost_of_mem_homes hends le_rfl hmem).elim id ?_
    rintro ⟨rfl, hnone⟩ q
    by_contra hencl
    rw [Bool.not_eq_false] at hencl
    obtain ⟨l, last, hl, hopen, -⟩ := exists_reaches_of_encloses hencl
    exact hnone q l (Nat.zero_le q) hl hopen hencl
  case sorted => exact Diagram.pairwise_citations p.lines
  case citing =>
    intro e he
    have h : e ∈ (stretch p.lines 0 p.lines.length).flatMap Diagram.citations := by
      rwa [stretch_zero_length]
    exact (Diagram.mem_range_of_mem_citations h).2
  case cited =>
    intro i l hl
    calc (p.diagram.edges.filter (·.2 = i)).map Prod.fst
        = (Diagram.citations (l, i)).map Prod.fst := by rw [← Diagram.filter_citations hl]; rfl
      _ = l.justification.cited := by simp [Diagram.citations, Function.comp_def]

end NaturalDeduction
