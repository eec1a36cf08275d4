import BoxScore.Main
import BoxScore.Plan.Draft
import BoxScore.Proofs.Noninterference
import BoxScore.Proofs.SafeText
import BoxScore.Proofs.PlacelessReading
import BoxScore.Proofs.JoinedTables
import BoxScore.Proofs.WellDeclared
import BoxScore.Proofs.Renaming
import BoxScore.Proofs.Lookahead
import BoxScore.Proofs.PredictiveReading
import BoxScore.Proofs.RowLimits
import BoxScore.Proofs.RefusedToken
import BoxScore.Proofs.StrayCharacters
import BoxScore.Proofs.FirstOffence
import BoxScore.Proofs.SameGame
import BoxScore.Proofs.MovedFilters
import BoxScore.Proofs.ConditionLayout
import BoxScore.Proofs.ReachableColumns
import BoxScore.Proofs.OpponentColumns
import BoxScore.Proofs.SeasonDays
import BoxScore.Proofs.CastColumns
import BoxScore.Proofs.FieldMeanings
import BoxScore.Proofs.ShownStatistics
import BoxScore.Proofs.IsolatedRuns
import BoxScore.Proofs.SessionLoop
import BoxScore.Proofs.SeasonLine
import BoxScore.Proofs.CaselessAliases
import BoxScore.Proofs.LostNumbers
import BoxScore.Proofs.OrderedEntries
import BoxScore.Proofs.NumberPlaces
import BoxScore.Proofs.TotalReading
import BoxScore.Proofs.WholeNumbers
