import GameRewards.RewardLaws

/-!
# The loops over a cycle

Duplicate detection, score collection and marking walk the `bygamecycle` index
from the packed key of a cycle to the first row of another one. All three
visit the rows of the cycle, and nothing else.
-/

namespace GameRewards

open MultiIndex (Table)

/-- The visited rows are those of the game and cycle, each once, in the order
of their ids. -/
structure VisitsCycle (t : Table GameRecords.primaryKey) (gameId : UInt8) (cycleNumber : UInt32)
    (visited : List GameRecords) : Prop where
  rows : ∀ r, r ∈ visited ↔ r ∈ t.rows ∧ r.gameId = gameId ∧ r.cycleNumber = cycleNumber
  once : visited.Nodup
  increasing : visited.Pairwise fun a b => a.id < b.id

theorem VisitsCycle.filter (t : Table GameRecords.primaryKey) (g : UInt8) (c : UInt32) :
    VisitsCycle t g c (t.rows.filter (GameRecords.inCycle g c)) where
  rows r := by rw [List.mem_filter, GameRecords.inCycle_iff]
  once := t.nodup.filter _
  increasing := t.sorted.filter _

/-- Whatever the table holds, the reading loop and the marking loop visit the
rows of the cycle in the order of their ids, and marking changes these rows
only. Both leave by themselves: no fuel beyond one pass for each row makes a
difference. -/
theorem cycle_loops_exact (t : Table GameRecords.primaryKey) (gameId : UInt8)
    (cycleNumber : UInt32) :
    VisitsCycle t gameId cycleNumber (t.scan GameRecords.byGameCycle (cycleKey gameId cycleNumber)
      (GameRecords.inCycle gameId cycleNumber)) ∧
    VisitsCycle t gameId cycleNumber (t.modifyScan GameRecords.byGameCycle
      (cycleKey gameId cycleNumber) (GameRecords.inCycle gameId cycleNumber) markDistributed
      markDistributed_id).1 ∧
    (t.modifyScan GameRecords.byGameCycle (cycleKey gameId cycleNumber)
      (GameRecords.inCycle gameId cycleNumber) markDistributed markDistributed_id).2.rows =
        t.rows.map (settleRow gameId cycleNumber) ∧
    ∀ fuel, t.rows.length ≤ fuel →
      t.visit GameRecords.byGameCycle (GameRecords.inCycle gameId cycleNumber) fuel
          (t.lowerBound GameRecords.byGameCycle (cycleKey gameId cycleNumber)) =
        t.scan GameRecords.byGameCycle (cycleKey gameId cycleNumber)
          (GameRecords.inCycle gameId cycleNumber) ∧
      Table.modifyVisit GameRecords.byGameCycle (GameRecords.inCycle gameId cycleNumber)
          markDistributed markDistributed_id fuel
          (t.lowerBound GameRecords.byGameCycle (cycleKey gameId cycleNumber)) t =
        t.modifyScan GameRecords.byGameCycle (cycleKey gameId cycleNumber)
          (GameRecords.inCycle gameId cycleNumber) markDistributed markDistributed_id := by
  have hkey : ∀ r ∈ t.rows, r.inCycle gameId cycleNumber =
      decide (r.byGameCycle = cycleKey gameId cycleNumber) := fun r _ => r.inCycle_eq_key
  have hscan := t.scan_eq_filter hkey
  obtain ⟨hvisited, hmarked⟩ :=
    t.modifyScan_eq (f := markDistributed) markDistributed_id (fun _ => rfl) hkey
  refine ⟨?_, ?_, hmarked, fun fuel hfuel => ⟨?_, ?_⟩⟩
  · rw [hscan]
    exact .filter t gameId cycleNumber
  · rw [hvisited]
    exact .filter t gameId cycleNumber
  · rw [hscan]
    exact t.visit_eq_filter hkey hfuel
  · obtain ⟨hvisited', hmarked'⟩ :=
      t.modifyVisit_eq (f := markDistributed) markDistributed_id (fun _ => rfl) hkey hfuel
    refine Prod.ext (hvisited'.trans hvisited.symm) (Table.ext_rows ?_)
    exact hmarked'.trans hmarked.symm

end GameRewards
