import Mathlib

namespace KernelStudy
namespace LinkedRing

/-!
# Circular doubly linked lists

A node of a doubly linked list has two links.  `Path` says that a list of
nodes lies between two ends: each node leads to the following one, and each
leads back to the one before it.  A ring is a path from its head to itself
without repetition, so following `next` and following `prev` from the head
visit the nodes in opposite orders.

The two edits of a ring are local.  `Path.splice` takes a node out between its
neighbours, and `Path.divert` leads the end of a path to another node; both
are stated for any links that agree elsewhere, so that whatever happens to the
links of the node taken out does not matter.
-/

universe u

/-- The links of all nodes. -/
structure Links (Node : Type u) where
  next : Node -> Node
  prev : Node -> Node

variable {Node : Type u}

/-- The second node follows the first one, in both directions. -/
def Joined (links : Links Node) (first second : Node) : Prop :=
  links.next first = second /\ links.prev second = first

/-- The nodes lie between the two ends. -/
def Path (links : Links Node) : Node -> List Node -> Node -> Prop
  | start, [], stop => Joined links start stop
  | start, node :: rest, stop => Joined links start node /\ Path links node rest stop

/-- A node is taken out: its neighbours are joined, and all links but those of
the node and the two new ones are kept. -/
structure Spliced (links other : Links Node) (node : Node) : Prop where
  joinsNext : other.next (links.prev node) = links.next node
  joinsPrev : other.prev (links.next node) = links.prev node
  keepsNext : forall place, place ≠ links.prev node -> place ≠ node ->
    other.next place = links.next place
  keepsPrev : forall place, place ≠ links.next node -> place ≠ node ->
    other.prev place = links.prev place

/-- The nodes of a ring, from the node after its head on. -/
structure Ring (links : Links Node) (head : Node) (nodes : List Node) : Prop where
  nodup : (head :: nodes).Nodup
  path : Path links head nodes head

section Path

variable {links other : Links Node} {start stop node : Node} {first second : List Node}

/-- A path through a node is a path to it and a path from it. -/
theorem path_append :
    Path links start (first ++ node :: second) stop <->
      Path links start first node /\ Path links node second stop := by
  induction first generalizing start with
  | nil => exact Iff.rfl
  | cons next rest inductionHypothesis =>
      rw [List.cons_append, Path, Path, inductionHypothesis, and_assoc]

/-- The first step of a path stays on it. -/
theorem Path.next_mem {nodes : List Node} (path : Path links start nodes stop) :
    links.next start ∈ nodes ++ [stop] := by
  cases nodes with
  | nil => exact List.mem_singleton.mpr path.1
  | cons next rest =>
      rw [path.1.1]
      exact List.mem_cons_self

/-- The last step of a path starts on it. -/
theorem Path.prev_mem {nodes : List Node} (path : Path links start nodes stop) :
    links.prev stop ∈ start :: nodes := by
  induction nodes generalizing start with
  | nil =>
      rw [path.2]
      exact List.mem_cons_self
  | cons next rest inductionHypothesis =>
      exact List.mem_cons_of_mem _ (inductionHypothesis path.2)

/-- A path depends only on the links along it. -/
theorem Path.congr {nodes : List Node} (path : Path links start nodes stop)
    (sameNext : forall node, node ∈ start :: nodes -> other.next node = links.next node)
    (samePrev : forall node, node ∈ nodes ++ [stop] -> other.prev node = links.prev node) :
    Path other start nodes stop := by
  induction nodes generalizing start with
  | nil =>
      exact ⟨(sameNext start List.mem_cons_self).trans path.1,
        (samePrev stop List.mem_cons_self).trans path.2⟩
  | cons next rest inductionHypothesis =>
      refine ⟨⟨(sameNext start List.mem_cons_self).trans path.1.1,
        (samePrev next List.mem_cons_self).trans path.1.2⟩, ?_⟩
      apply inductionHypothesis path.2
      · exact fun node member => sameNext node (List.mem_cons_of_mem _ member)
      · exact fun node member => samePrev node (List.mem_cons_of_mem _ member)

/-- A path without a node that is taken out. -/
theorem Path.splice (before : Path links start first node) (after : Path links node second stop)
    (nodup : (start :: (first ++ node :: second)).Nodup) (apart : stop ∉ first ++ node :: second)
    (spliced : Spliced links other node) : Path other start (first ++ second) stop := by
  induction first generalizing start with
  | nil =>
      -- the node before is the start of the path
      rcases spliced with ⟨joinsNext, joinsPrev, keepsNext, keepsPrev⟩
      have parts := List.nodup_cons.mp nodup
      rw [before.2] at joinsNext joinsPrev keepsNext
      cases second with
      | nil =>
          rw [after.1] at joinsNext joinsPrev
          exact ⟨joinsNext, joinsPrev⟩
      | cons next rest =>
          rw [after.1.1] at joinsNext joinsPrev keepsPrev
          have rests := List.nodup_cons.mp (List.nodup_cons.mp parts.2).2
          refine ⟨⟨joinsNext, joinsPrev⟩, Path.congr after.2 ?_ ?_⟩
          · intro place member
            refine keepsNext place (fun same => ?_) (fun same => ?_)
            · exact parts.1 (same ▸ List.mem_cons_of_mem _ member)
            · exact (List.nodup_cons.mp parts.2).1 (same ▸ member)
          · intro place member
            refine keepsPrev place (fun same => ?_) (fun same => ?_)
            · rcases List.mem_append.mp member with inside | last
              · exact rests.1 (same ▸ inside)
              · have isStop := List.mem_singleton.mp last
                exact apart (isStop ▸ same ▸ List.mem_cons_of_mem _ List.mem_cons_self)
            · rcases List.mem_append.mp member with inside | last
              · exact (List.nodup_cons.mp parts.2).1 (same ▸ List.mem_cons_of_mem _ inside)
              · have isStop := List.mem_singleton.mp last
                exact apart (isStop ▸ same ▸ List.mem_cons_self)
  | cons next rest inductionHypothesis =>
      -- the two new links lie further on
      have parts := List.nodup_cons.mp nodup
      have rests := List.nodup_cons.mp parts.2
      have earlier : links.prev node ∈ next :: rest := before.2.prev_mem
      have later : links.next node ∈ second ++ [stop] := after.next_mem
      refine ⟨⟨(spliced.keepsNext start ?_ ?_).trans before.1.1,
        (spliced.keepsPrev next ?_ ?_).trans before.1.2⟩, ?_⟩
      · intro same
        exact parts.1 (same ▸ List.mem_append_left _ earlier)
      · intro same
        exact parts.1 (same ▸ List.mem_append_right _ List.mem_cons_self)
      · intro same
        rcases List.mem_append.mp later with inside | last
        · exact rests.1 (same ▸ List.mem_append_right _ (List.mem_cons_of_mem _ inside))
        · have isStop := List.mem_singleton.mp last
          exact apart (isStop ▸ same ▸ List.mem_cons_self)
      · intro same
        exact rests.1 (same ▸ List.mem_append_right _ List.mem_cons_self)
      · exact inductionHypothesis before.2 parts.2 (fun member => apart (List.mem_cons_of_mem _ member))

/-- Leading the end of a path to another node. -/
theorem Path.divert {nodes : List Node} (path : Path links start nodes stop)
    (nodup : (start :: nodes).Nodup) (apart : stop ∉ nodes) (fresh : node ∉ nodes)
    (joinsNext : other.next (links.prev stop) = node)
    (joinsPrev : other.prev node = links.prev stop)
    (keepsNext : forall place, place ∈ start :: nodes -> place ≠ links.prev stop ->
      other.next place = links.next place)
    (keepsPrev : forall place, place ≠ stop -> place ≠ node -> other.prev place = links.prev place) :
    Path other start nodes node := by
  induction nodes generalizing start with
  | nil =>
      rw [path.2] at joinsNext joinsPrev
      exact ⟨joinsNext, joinsPrev⟩
  | cons next rest inductionHypothesis =>
      have parts := List.nodup_cons.mp nodup
      have last : links.prev stop ∈ next :: rest := path.2.prev_mem
      refine ⟨⟨(keepsNext start List.mem_cons_self ?_).trans path.1.1,
        (keepsPrev next ?_ ?_).trans path.1.2⟩, ?_⟩
      · intro same
        exact parts.1 (same ▸ last)
      · intro same
        exact apart (same ▸ List.mem_cons_self)
      · intro same
        exact fresh (same ▸ List.mem_cons_self)
      · exact inductionHypothesis path.2 parts.2 (fun member => apart (List.mem_cons_of_mem _ member))
          (fun member => fresh (List.mem_cons_of_mem _ member))
          (fun place member => keepsNext place (List.mem_cons_of_mem _ member))

end Path

/-! ## Edits of a ring -/

section Ring

variable {links other : Links Node} {head node : Node} {first second nodes : List Node}

/-- A ring without one of its nodes. -/
theorem Ring.remove (ring : Ring links head (first ++ node :: second))
    (spliced : Spliced links other node) : Ring other head (first ++ second) := by
  have parts := path_append.mp ring.path
  have apart := (List.nodup_cons.mp ring.nodup).1
  refine ⟨?_, parts.1.splice parts.2 ring.nodup apart spliced⟩
  have shorter : (first ++ second).Sublist (first ++ node :: second) :=
    (List.sublist_cons_self node second).append_left first
  exact ring.nodup.sublist (shorter.cons_cons head)

/-- A ring with a new last node. -/
theorem Ring.append (ring : Ring links head nodes) (fresh : node ∉ head :: nodes)
    (joinsNext : other.next (links.prev head) = node) (joinsPrev : other.prev node = links.prev head)
    (closesNext : other.next node = head) (closesPrev : other.prev head = node)
    (keepsNext : forall place, place ∈ head :: nodes -> place ≠ links.prev head ->
      other.next place = links.next place)
    (keepsPrev : forall place, place ≠ head -> place ≠ node -> other.prev place = links.prev place) :
    Ring other head (nodes ++ [node]) := by
  have apart := (List.nodup_cons.mp ring.nodup).1
  have outside : node ∉ nodes := fun member => fresh (List.mem_cons_of_mem _ member)
  refine ⟨?_, path_append.mpr ⟨?_, closesNext, closesPrev⟩⟩
  · have extended := List.nodup_cons.mpr ⟨fresh, ring.nodup⟩
    exact extended.perm (List.perm_append_singleton node (head :: nodes)).symm
  · exact ring.path.divert ring.nodup apart outside joinsNext joinsPrev keepsNext keepsPrev

end Ring

end LinkedRing
end KernelStudy
