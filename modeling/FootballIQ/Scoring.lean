import FootballIQ.Contests
import FootballIQ.MarketScorers

/-!
# Scoring

A finalized fixture is scored contest by contest. One transaction writes every
prediction on the match, batched by identical picks, and recomputes the entry
aggregates from all scored predictions of the contest. Two counts outside that
transaction then decide whether the contest is complete.
-/

namespace FootballIQ
namespace Scoring

open Transaction Relational Contests

section Groups

structure Group where
  ids : List ℕ
  pick : ScoredPick
  deriving DecidableEq

def groupKey (p : Prediction) : String := p.marketType.name ++ "|" ++ p.selection

/-- The pure scoring of one prediction under the rules of its contest. -/
def scoreOf (rules : List MarketRule) (result : FinalResult) (p : Prediction) : ScoredPick :=
  scorePrediction p.marketType p.selection result ((pointsByMarket rules p.marketType).getD 0)

/-- One turn of the grouping loop: the first pick of a kind opens and scores its group. -/
def addPick (rules : List MarketRule) (result : FinalResult) (groups : List (String × Group))
    (p : Prediction) : List (String × Group) :=
  match groups.lookup (groupKey p) with
  | some _ => groups.map (fun g =>
      if g.1 = groupKey p then (g.1, { g.2 with ids := g.2.ids ++ [p.id] }) else g)
  | none => groups ++ [(groupKey p, ⟨[p.id], scoreOf rules result p⟩)]

def pickGroups (rules : List MarketRule) (result : FinalResult) (predictions : List Prediction) :
    List (String × Group) :=
  predictions.foldl (addPick rules result) []

/-- The `updateMany` of one group. -/
def writeGroup (scoredAt : DateTime) (predictions : Table Prediction) (group : Group) :
    Table Prediction :=
  predictions.updateWhere (fun p => p.id ∈ group.ids)
    (fun p => { p with
      isCorrect := some group.pick.isCorrect
      pointsX10 := group.pick.pointsX10
      scoredAt := some scoredAt })
    (fun _ => rfl)

end Groups

section Aggregates

/-- The scored predictions of a contest joined with their slots. -/
def scoredPicks (db : Db) (contestId : ℕ) : List (Prediction × ContestSlot) :=
  db.predictions.rows.filterMap (fun p => do
    let slot ← db.contestSlots.find p.slotId
    if p.scoredAt ≠ none ∧ slot.contestId = contestId then some (p, slot) else none)

def picksOf (db : Db) (contestId entryId : ℕ) : List (Prediction × ContestSlot) :=
  (scoredPicks db contestId).filter (fun r => r.1.entryId = entryId)

def countCorrect (picks : List (Prediction × ContestSlot)) (p : ContestSlot → Bool) : ℕ :=
  (picks.filter (fun r => r.1.isCorrect = some true ∧ p r.2)).length

/-- The set-based recomputation: an entry with a scored prediction gets the sums
over its own scored predictions. -/
def recomputeAggregates (db : Db) (contestId : ℕ) : Table Entry :=
  db.entries.updateWhere (fun e => picksOf db contestId e.id ≠ [])
    (fun e => { e with
      totalPointsX10 := ((picksOf db contestId e.id).map (·.1.pointsX10)).sum
      correctCount := countCorrect (picksOf db contestId e.id) (fun _ => true)
      correctExpert := countCorrect (picksOf db contestId e.id) (fun slot => slot.tier = .expert)
      correctHard := countCorrect (picksOf db contestId e.id) (fun slot => slot.tier = .hard) })
    (fun _ => rfl)

end Aggregates

section Handler

def finalResult (f : Fixture) : FinalResult where
  homeGoals := f.homeGoals.getD 0
  awayGoals := f.awayGoals.getD 0
  htHomeGoals := f.htHomeGoals.getD 0
  htAwayGoals := f.htAwayGoals.getD 0
  firstToScore := f.firstToScore.getD .none

/-- The first read of the handler: the result of a finalized fixture. -/
def readResult (fixtureId : ℕ) (db : Db) : Option FinalResult := do
  let fixture ← db.fixtures.find fixtureId
  if fixture.resultFinalizedAt = none then none else some (finalResult fixture)

/-- The second read: the matches of the fixture whose contest is LOCKED or SCORING. -/
def readMatches (fixtureId : ℕ) (db : Db) : List ContestMatch :=
  db.contestMatches.findMany (fun m => m.fixtureId = fixtureId ∧
    (db.contests.find m.contestId).any (fun c => c.status = .locked ∨ c.status = .scoring))

/-- The predictions pinned to a contest match through their slot. -/
def onMatch (db : Db) (contestMatchId : ℕ) (p : Prediction) : Prop :=
  (db.contestSlots.find p.slotId).any (fun slot => slot.contestMatchId = contestMatchId)

instance (db : Db) (contestMatchId : ℕ) : DecidablePred (onMatch db contestMatchId) := fun p =>
  inferInstanceAs (Decidable ((db.contestSlots.find p.slotId).any _ = true))

def scoreContestMatch (now : DateTime) (contestId contestMatchId : ℕ) (result : FinalResult) :
    Tx Failure Db PUnit := do
  let _ ← moveContest contestId .locked (fun c => { c with status := .scoring }) (fun _ => rfl)
  let db ← get
  let contest ← orThrow (db.contests.find contestId) .recordNotFound
  let ruleSet ← orThrow (db.ruleSets.find contest.ruleSetId) .recordNotFound
  let predictions := db.predictions.findMany (onMatch db contestMatchId)
  modify (fun db => { db with
    predictions := ((pickGroups ruleSet.marketRules result predictions).map Prod.snd).foldl
      (writeGroup now) db.predictions })
  modify (fun db => { db with entries := recomputeAggregates db contestId })
  Db.emit (.predictionScored contestId)

def pendingFixtures (db : Db) (contestId : ℕ) : ℕ :=
  db.contestMatches.count (fun m => m.contestId = contestId ∧
    (db.fixtures.find m.fixtureId).any (fun f => f.resultFinalizedAt = none))

def pendingPredictions (db : Db) (contestId : ℕ) : ℕ :=
  db.predictions.count (fun p => p.scoredAt = none ∧
    (db.entries.find p.entryId).any (fun e => e.contestId = contestId))

/-- The last transaction of `finalizeContestIfComplete`, after both counts were zero. -/
def markScored (now : DateTime) (contestId : ℕ) : Tx Failure Db PUnit := do
  let count ← moveContest contestId .scoring
    (fun c => { c with status := .scored, scoredAt := some now }) (fun _ => rfl)
  if count = 1 then Db.emit (.contestScored contestId) else pure ⟨⟩

def finalizeContestIfComplete (now : DateTime) (contestId : ℕ) (db : Db) : Db :=
  if 0 < pendingFixtures db contestId ∨ 0 < pendingPredictions db contestId then db
  else commit (markScored now contestId) db

/-- The loop over the contest matches of a fixture; a failed scoring transaction
ends the job. -/
def scoreMatches (now : DateTime) (result : FinalResult) : List ContestMatch → Db → Db
  | [], db => db
  | cm :: cms, db =>
    match scoreContestMatch now cm.contestId cm.id result db with
    | .error _ => db
    | .ok (_, db') =>
      scoreMatches now result cms (finalizeContestIfComplete now cm.contestId db')

/-- The handler run without interleaving. -/
def onResultFinalized (now : DateTime) (fixtureId : ℕ) (db : Db) : Db :=
  match readResult fixtureId db with
  | none => db
  | some result => scoreMatches now result (readMatches fixtureId db) db

end Handler

end Scoring
end FootballIQ
