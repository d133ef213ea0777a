import GameRewards.MultiIndex.Index
import GameRewards.MultiIndex.Maps
import GameRewards.History
import GameRewards.Traces
import GameRewards.Ranking
import GameRewards.Calendar
import GameRewards.Shares
import GameRewards.Contest
import GameRewards.Chain
import GameRewards.Tables
import GameRewards.Actions.Init
import GameRewards.Actions.GameManagement
import GameRewards.Actions.GameRecord
import GameRewards.Actions.RewardManagement
import GameRewards.ConfigLaws
import GameRewards.RecordLaws
import GameRewards.RewardLaws
import GameRewards.Contract
import GameRewards.Invariant
import GameRewards.Closing
import GameRewards.PayoutLog
import GameRewards.RecordHistory
import GameRewards.RecordIds
import GameRewards.Records
import GameRewards.Reinitialization
import GameRewards.Orphans
import GameRewards.Admission
import GameRewards.Winners
import GameRewards.Rounding
import GameRewards.SubmissionOrder
import GameRewards.Memos
import GameRewards.CycleBounds
import GameRewards.Scans
import GameRewards.Intake
import GameRewards.Batches
import GameRewards.Columns
import GameRewards.StatOrder
import GameRewards.Independence
import GameRewards.LogOrder
import GameRewards.Ties
import GameRewards.Neutrality
import GameRewards.TokenTransfer
import GameRewards.Token.Actions
import GameRewards.Token.Balances
import GameRewards.Token.Laws
import GameRewards.Token.Currencies
import GameRewards.System
import GameRewards.Treasury
import GameRewards.Payouts
import GameRewards.ContestRun
import GameRewards.Settings
import GameRewards.PayoutConditions
import GameRewards.Arithmetic
import GameRewards.Acceptance
import GameRewards.Funding
