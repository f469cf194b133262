import OpeningTimes.Proofs.Calendar.DateBounds
import OpeningTimes.Timetable.Series
import OpeningTimes.Timetable.Trial
import OpeningTimes.Zone.Named
import OpeningTimes.Proofs.Timetable.SearchRange
import OpeningTimes.Proofs.Timetable.SearchRangeLimits
import OpeningTimes.Proofs.Timetable.DayOpening
import OpeningTimes.Proofs.Timetable.Candidate
import OpeningTimes.Proofs.Timetable.Evaluation
import OpeningTimes.Proofs.Timetable.NextOpening
import OpeningTimes.Proofs.Expression.Items
import OpeningTimes.Proofs.Expression.CrossProduct
import OpeningTimes.Proofs.Expression.Likeness
import OpeningTimes.Proofs.Expression.Override
import OpeningTimes.Proofs.Rule.PassageExpression
import OpeningTimes.Proofs.Rule.RoundTrip
import OpeningTimes.Proofs.Timetable.Soundness
import OpeningTimes.Proofs.Zone.Shift
import OpeningTimes.Proofs.Zone.Readings
import OpeningTimes.Proofs.Timetable.ZonedAnswer
import OpeningTimes.Proofs.Expression.Grammar
import OpeningTimes.Proofs.Expression.Terminals
import OpeningTimes.Proofs.Expression.CommaLists
import OpeningTimes.Proofs.Expression.Derivation
import OpeningTimes.Proofs.Expression.EntryParts
import OpeningTimes.Proofs.Expression.Acceptance
import OpeningTimes.Proofs.Expression.Recognition
import OpeningTimes.Proofs.Rule.Kinds
import OpeningTimes.Proofs.Timetable.OpenDates
import OpeningTimes.Proofs.Timetable.OneMoreRule
import OpeningTimes.Proofs.Timetable.LaterQuestion
import OpeningTimes.Proofs.Timetable.LocalAnswer
import OpeningTimes.Proofs.Zone.NextReading
import OpeningTimes.Proofs.Rule.ReadRules
import OpeningTimes.Proofs.Timetable.SameRules
import OpeningTimes.Proofs.Timetable.Trial
import OpeningTimes.Proofs.Expression.LongestKind
import OpeningTimes.Proofs.Expression.MaximalMunch
import OpeningTimes.Proofs.Rule.WellFormed
import OpeningTimes.Proofs.Rule.Regathering
import OpeningTimes.Proofs.Rule.NormalForm
import OpeningTimes.Proofs.Expression.Faults
import OpeningTimes.Proofs.Expression.LetterCase
import OpeningTimes.Proofs.Expression.Spacing
import OpeningTimes.Proofs.Holidays.DateText
import OpeningTimes.Proofs.Holidays.HolidaySet
import OpeningTimes.Proofs.Expression.DayWarnings
import OpeningTimes.Proofs.Expression.ClampedText
