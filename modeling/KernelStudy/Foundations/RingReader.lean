import KernelStudy.Foundations.LinkedRing

namespace KernelStudy
namespace RingReader

open LinkedRing

/-!
# Readers of a ring that changes

A reader of a ring follows `next` from node to node until it comes back to the
head.  Meanwhile others may take nodes out and put new ones in before the head.
A node that is taken out keeps its own link forward, so that a reader that
stands on it finds its way back into the ring.

`Leads` is the way that lies before a reader.  The nodes on it need not be in
the ring any more.  The two rules say how the way changes: taking a node out
shortens it by that node or leaves it as it is, and putting a node in lengthens
it by that node or leaves it as it is.  What lies on the way otherwise stays.
-/

universe u

variable {Node : Type u}

/-- Following `next` from a node leads over the nodes of the list to the stop. -/
def Leads (next : Node -> Node) : Node -> List Node -> Node -> Prop
  | place, [], stop => next place = stop
  | place, node :: way, stop => next place = node /\ Leads next node way stop

/-- A node is taken out, and all forward links but the one to it are kept. -/
structure Unlinked (links other : Links Node) (node : Node) : Prop where
  joinsNext : other.next (links.prev node) = links.next node
  joinsPrev : links.next node ≠ node -> other.prev (links.next node) = links.prev node
  keepsNext : forall place, place ≠ links.prev node -> other.next place = links.next place
  keepsPrev : forall place, place ≠ links.next node -> place ≠ node ->
    other.prev place = links.prev place

/-- A node is put in before the head. -/
structure Linked (links other : Links Node) (head node : Node) : Prop where
  joinsNext : other.next (links.prev head) = node
  joinsPrev : other.prev node = links.prev head
  closesNext : other.next node = head
  closesPrev : other.prev head = node
  keepsNext : forall place, place ≠ links.prev head -> place ≠ node ->
    other.next place = links.next place
  keepsPrev : forall place, place ≠ head -> place ≠ node -> other.prev place = links.prev place

/-! ## The two edits -/

section Edits

variable [DecidableEq Node]

/-- `list_del_rcu`: the neighbours are joined, and the link back of the node is
poisoned. -/
def unlink (poison : Node) (links : Links Node) (node : Node) : Links Node where
  next := Function.update links.next (links.prev node) (links.next node)
  prev := Function.update (Function.update links.prev (links.next node) (links.prev node)) node poison

/-- `list_add_tail_rcu`. -/
def linkTail (links : Links Node) (head node : Node) : Links Node where
  next := Function.update (Function.update links.next node head) (links.prev head) node
  prev := Function.update (Function.update links.prev node (links.prev head)) head node

/-- `list_replace_rcu`: the new node takes the place of the old one, which keeps its own
link forward. -/
def replaceNode (poison : Node) (links : Links Node) (old new : Node) : Links Node where
  next := Function.update (Function.update links.next new (links.next old)) (links.prev old) new
  prev := Function.update (Function.update (Function.update links.prev new (links.prev old))
    (links.next old) new) old poison

theorem unlink_unlinked (poison : Node) (links : Links Node) (node : Node) :
    Unlinked links (unlink poison links node) node where
  joinsNext := Function.update_self _ _ _
  joinsPrev := fun apart => (Function.update_of_ne apart _ _).trans (Function.update_self _ _ _)
  keepsNext := fun _ apart => Function.update_of_ne apart _ _
  keepsPrev := fun _ apart other =>
    (Function.update_of_ne other _ _).trans (Function.update_of_ne apart _ _)

theorem linkTail_linked (links : Links Node) {head node : Node} (apart : node ≠ head)
    (fresh : node ≠ links.prev head) : Linked links (linkTail links head node) head node where
  joinsNext := Function.update_self _ _ _
  joinsPrev := (Function.update_of_ne apart _ _).trans (Function.update_self _ _ _)
  closesNext := (Function.update_of_ne fresh _ _).trans (Function.update_self _ _ _)
  closesPrev := Function.update_self _ _ _
  keepsNext := fun _ last other => (Function.update_of_ne last _ _).trans (Function.update_of_ne other _ _)
  keepsPrev := fun _ first other => (Function.update_of_ne first _ _).trans (Function.update_of_ne other _ _)

end Edits

/-! ## The ring itself -/

section Ring

variable {links other : Links Node} {head node : Node} {first second nodes : List Node}

theorem next_prev_of_path {start stop : Node} (path : Path links start nodes stop) :
    links.next (links.prev stop) = stop := by
  induction nodes generalizing start with
  | nil =>
      rw [path.2]
      exact path.1
  | cons _ _ inductionHypothesis => exact inductionHypothesis path.2

theorem leads_of_path {start stop : Node} (path : Path links start nodes stop) :
    Leads links.next start nodes stop := by
  induction nodes generalizing start with
  | nil => exact path.1
  | cons _ _ inductionHypothesis => exact ⟨path.1.1, inductionHypothesis path.2⟩

theorem Unlinked.ring (unlinked : Unlinked links other node)
    (ring : Ring links head (first ++ node :: second)) : Ring other head (first ++ second) := by
  have parts := path_append.mp ring.path
  have later : links.next node ∈ second ++ [head] := parts.2.next_mem
  have apart : links.next node ≠ node := by
    intro same
    rw [same] at later
    have nodup := ring.nodup
    rcases List.mem_append.mp later with inside | last
    · exact (List.nodup_cons.mp (List.nodup_append.mp (List.nodup_cons.mp nodup).2).2.1).1 inside
    · rw [← List.mem_singleton.mp last] at nodup
      exact (List.nodup_cons.mp nodup).1 (List.mem_append_right _ List.mem_cons_self)
  exact ring.remove ⟨unlinked.joinsNext, unlinked.joinsPrev apart,
    fun place away _ => unlinked.keepsNext place away, unlinked.keepsPrev⟩

theorem Linked.ring (linked : Linked links other head node) (ring : Ring links head nodes)
    (fresh : node ∉ head :: nodes) : Ring other head (nodes ++ [node]) := by
  refine ring.append fresh linked.joinsNext linked.joinsPrev linked.closesNext linked.closesPrev ?_
    linked.keepsPrev
  intro place member last
  exact linked.keepsNext place last (fun same => fresh (same ▸ member))

/-- A node that is put in before the first node comes first. -/
theorem Linked.ring_front (linked : Linked links other (links.next head) node) (ring : Ring links head nodes)
    (fresh : node ∉ head :: nodes) : Ring other head (node :: nodes) := by
  have path := ring.path
  have parts := List.nodup_cons.mp ring.nodup
  have outside : node ∉ nodes := fun member => fresh (List.mem_cons_of_mem _ member)
  refine ⟨?_, ?_⟩
  · exact (List.Perm.swap _ _ _).nodup (List.nodup_cons.mpr ⟨fresh, ring.nodup⟩)
  · cases nodes with
    | nil =>
        have back : links.next head = head := path.1
        rw [back] at linked
        refine ⟨⟨?_, ?_⟩, linked.closesNext, linked.closesPrev⟩
        · exact path.2 ▸ linked.joinsNext
        · exact linked.joinsPrev.trans path.2
    | cons following rest =>
        have onward : links.next head = following := path.1.1
        rw [onward] at linked
        have behind := List.nodup_cons.mp parts.2
        refine ⟨⟨?_, ?_⟩, ⟨linked.closesNext, linked.closesPrev⟩, path.2.congr ?_ ?_⟩
        · exact path.1.2 ▸ linked.joinsNext
        · exact linked.joinsPrev.trans path.1.2
        · intro place member
          refine linked.keepsNext place (fun same => ?_) (fun same => outside (same ▸ member))
          rw [path.1.2] at same
          exact parts.1 (same ▸ member)
        · intro place member
          refine linked.keepsPrev place (fun same => ?_) (fun same => ?_)
          · rcases List.mem_append.mp member with inside | last
            · exact behind.1 (same ▸ inside)
            · exact parts.1 (List.mem_singleton.mp last ▸ same ▸ List.mem_cons_self)
          · rcases List.mem_append.mp member with inside | last
            · exact outside (same ▸ List.mem_cons_of_mem _ inside)
            · exact fresh (same ▸ List.mem_singleton.mp last ▸ List.mem_cons_self)

/-- The nodes whose links an edit of a ring touches are nodes of the ring. -/
theorem ring_neighbours (ring : Ring links head (first ++ node :: second)) :
    links.prev node ∈ head :: (first ++ node :: second) /\
      links.next node ∈ head :: (first ++ node :: second) := by
  have parts := path_append.mp ring.path
  have earlier : links.prev node ∈ head :: first := parts.1.prev_mem
  have later : links.next node ∈ second ++ [head] := parts.2.next_mem
  constructor
  · exact List.cons_subset_cons head (List.subset_append_left _ _) earlier
  · rcases List.mem_append.mp later with inside | last
    · exact List.mem_cons_of_mem _ (List.mem_append_right _ (List.mem_cons_of_mem _ inside))
    · rw [List.mem_singleton.mp last]
      exact List.mem_cons_self

end Ring

/-! ## The way before a reader -/

section Way

variable {links other : Links Node} {head node place stop : Node} {first second nodes way : List Node}

/-- A way depends only on the links along it. -/
theorem Leads.congr {next changed : Node -> Node} (leads : Leads next place way stop)
    (same : forall node, node ∈ place :: way -> changed node = next node) :
    Leads changed place way stop := by
  induction way generalizing place with
  | nil => exact (same place List.mem_cons_self).trans leads
  | cons node rest inductionHypothesis =>
      exact ⟨(same place List.mem_cons_self).trans leads.1,
        inductionHypothesis leads.2 (fun other member => same other (List.mem_cons_of_mem _ member))⟩

/-- A node is taken out.  If the reader comes past the node before it, then the
node is skipped. -/
theorem Leads.unlink (leads : Leads links.next place way head)
    (ring : Ring links head (first ++ node :: second)) (unlinked : Unlinked links other node)
    (nodup : (place :: way).Nodup) :
    Leads other.next place way head \/
      Exists fun left => Leads other.next place left head /\ way.Perm (node :: left) := by
  have before : links.next (links.prev node) = node := next_prev_of_path (path_append.mp ring.path).1
  induction way generalizing place with
  | nil =>
      have apart : place ≠ links.prev node := by
        intro same
        have isHead : node = head := before.symm.trans (same ▸ leads)
        exact (List.nodup_cons.mp ring.nodup).1 (isHead ▸ List.mem_append_right _ List.mem_cons_self)
      exact Or.inl ((unlinked.keepsNext place apart).trans leads)
  | cons following rest inductionHypothesis =>
      have parts := List.nodup_cons.mp nodup
      by_cases here : place = links.prev node
      · -- the link that is changed
        right
        have isNode : following = node := leads.1.symm.trans (here ▸ before)
        have skips : other.next place = links.next node := here ▸ unlinked.joinsNext
        have onward := leads.2
        rw [isNode] at onward ⊢
        refine ⟨rest, ?_, List.Perm.refl _⟩
        cases rest with
        | nil => exact skips.trans onward
        | cons behind later =>
            refine ⟨skips.trans onward.1, onward.2.congr ?_⟩
            intro kept member
            apply unlinked.keepsNext kept
            intro same
            exact parts.1 (here ▸ same ▸ List.mem_cons_of_mem _ member)
      · have goes := (unlinked.keepsNext place here).trans leads.1
        rcases inductionHypothesis leads.2 parts.2 with same | ⟨left, leadsLeft, shorter⟩
        · exact Or.inl ⟨goes, same⟩
        · exact Or.inr ⟨following :: left, ⟨goes, leadsLeft⟩,
            (shorter.cons following).trans (List.Perm.swap _ _ _)⟩

/-- A node is put in.  If the reader comes past the last node, then the new node
lies at the end of its way. -/
theorem Leads.link (leads : Leads links.next place way head) (ring : Ring links head nodes)
    (linked : Linked links other head node) (fresh : node ∉ place :: way) (apart : head ∉ way) :
    Leads other.next place way head \/ Leads other.next place (way ++ [node]) head := by
  have closes : links.next (links.prev head) = head := next_prev_of_path ring.path
  induction way generalizing place with
  | nil =>
      by_cases last : place = links.prev head
      · right
        exact ⟨last ▸ linked.joinsNext, linked.closesNext⟩
      · left
        have other : place ≠ node := fun same => fresh (same ▸ List.mem_cons_self)
        exact (linked.keepsNext place last other).trans leads
  | cons following rest inductionHypothesis =>
      have last : place ≠ links.prev head := by
        intro same
        have isHead : head = following := closes.symm.trans (same ▸ leads.1)
        exact apart (isHead ▸ List.mem_cons_self)
      have other : place ≠ node := fun same => fresh (same ▸ List.mem_cons_self)
      have goes := (linked.keepsNext place last other).trans leads.1
      rcases inductionHypothesis leads.2 (fun member => fresh (List.mem_cons_of_mem _ member))
        (fun member => apart (List.mem_cons_of_mem _ member)) with same | longer
      · exact Or.inl ⟨goes, same⟩
      · exact Or.inr ⟨goes, longer⟩

end Way

/-! ## Rings whose nodes are heads of further rings -/

section Groups

universe v

variable {Item : Type v} {first second : Node -> List Item} {heads : List Node} {head : Node} {item : Item}

/-- One of the groups gets a further item. -/
theorem flatMap_extend (nodup : heads.Nodup) (member : head ∈ heads)
    (extended : (second head).Perm (item :: first head))
    (same : forall other, other ≠ head -> second other = first other) :
    (heads.flatMap second).Perm (item :: heads.flatMap first) := by
  rcases List.append_of_mem member with ⟨before, behind, split⟩
  subst heads
  have parts := List.nodup_append.mp nodup
  have earlier : before.flatMap second = before.flatMap first := by
    apply List.flatMap_congr
    intro other inside
    exact same other (parts.2.2 other inside head List.mem_cons_self)
  have later : behind.flatMap second = behind.flatMap first := by
    apply List.flatMap_congr
    intro other inside
    exact same other (fun equal => (List.nodup_cons.mp parts.2.1).1 (equal ▸ inside))
  rw [List.flatMap_append, List.flatMap_append, List.flatMap_cons, List.flatMap_cons, earlier, later]
  exact ((extended.append_right _).append_left _).trans List.perm_middle

end Groups

end RingReader
end KernelStudy
