import CareDirect.Lib.Run
import CareDirect.Lib.ObjectArray
import CareDirect.Lib.GuidedWalk
import CareDirect.Lib.Positions
import CareDirect.Lib.Journal
import CareDirect.Lib.Refill
import CareDirect.Lib.Broadcast
import CareDirect.Lib.Pattern
import CareDirect.Lib.IcuPattern
import CareDirect.Lib.Segments
import CareDirect.Lib.Dictionary
import CareDirect.Lib.Writes
import CareDirect.Lib.Spawning
import CareDirect.Firebase
import CareDirect.Screener.QuestionVC
import CareDirect.Screener.Press
import CareDirect.Screener.Coherence
import CareDirect.Screener.Outcome
import CareDirect.Screener.Progress
import CareDirect.Screener.Live
import CareDirect.Screener.Redelivery
import CareDirect.Screener.Early
import CareDirect.Screener.Completion
import CareDirect.Screener.Attached
import CareDirect.Screener.DLRadioButton
import CareDirect.Screener.RadioGroups
import CareDirect.Screener.Scene
import CareDirect.Results.ScreenerResultsVC
import CareDirect.Results.Observers
import CareDirect.Results.Table
import CareDirect.Results.Sections
import CareDirect.Results.History
import CareDirect.Results.Compass
import CareDirect.Results.Advice
import CareDirect.Resources.ResorcesVC
import CareDirect.Resources.Category
import CareDirect.Resources.Expanded
import CareDirect.Resources.Restriction
import CareDirect.Resources.Labels
import CareDirect.Directory.Lists
import CareDirect.Directory.Mirror
import CareDirect.Directory.Dialling
import CareDirect.Events.EventsVC
import CareDirect.Events.Agreement
import CareDirect.Events.Pins
import CareDirect.Events.Tolerance
import CareDirect.Events.AddEventVC
import CareDirect.Events.ReadBack
import CareDirect.Events.Node
import CareDirect.Events.Screens
import CareDirect.Events.PinView
import CareDirect.Cells.Table
import CareDirect.Cells.Pictures
import CareDirect.Cells.Live
import CareDirect.Cells.Details
import CareDirect.Cells.Sites
import CareDirect.Cells.Heights
import CareDirect.Cells.Calls
import CareDirect.Cells.AnnotationViews
import CareDirect.Cells.Submitted
import CareDirect.Accounts.SignUpVC
import CareDirect.Accounts.Validation
import CareDirect.Accounts.SignUp
import CareDirect.Accounts.Emails
import CareDirect.Accounts.Overlap
import CareDirect.Paging.PaperOnboarding
import CareDirect.Paging.Onboarding
import CareDirect.Paging.Pages
import CareDirect.Paging.Touches
import CareDirect.Paging.Notices
