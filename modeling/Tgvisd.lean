import Tgvisd.Td.QueryIds
import Tgvisd.Td.Authentication
import Tgvisd.Td.Updates
import Tgvisd.Td.Correlation
import Tgvisd.Main.Shutdown
import Tgvisd.Scrapers.ChatScraper
import Tgvisd.HistoryScraper.EventLog
import Tgvisd.Lib.Blame
import Tgvisd.Lib.Fairness
import Tgvisd.Main.WorkerPool
import Tgvisd.HistoryScraper.NullAnswers
import Tgvisd.HistoryScraper.Database
import Tgvisd.HistoryScraper.Store
import Tgvisd.HistoryScraper.Canonical
import Tgvisd.HistoryScraper.Refinement
import Tgvisd.HistoryScraper.Commits
import Tgvisd.HistoryScraper.Pages
import Tgvisd.HistoryScraper.Histories
import Tgvisd.HistoryScraper.Simulation
import Tgvisd.HistoryScraper.Storings
import Tgvisd.HistoryScraper.Duties
import Tgvisd.HistoryScraper.MessageRows
import Tgvisd.HistoryScraper.Cursor
import Tgvisd.HistoryScraper.Records
import Tgvisd.HistoryScraper.Edits
import Tgvisd.HistoryScraper.Tracking
import Tgvisd.HistoryScraper.Files
import Tgvisd.HistoryScraper.FileRows
import Tgvisd.HistoryScraper.Caches
import Tgvisd.Main.PoolInvariant
import Tgvisd.Main.PoolSteps
import Tgvisd.Main.PoolDispatch
import Tgvisd.Lib.Block
import Tgvisd.Main.PoolClosing
import Tgvisd.TeaBot.Trim
import Tgvisd.TeaBot.Curl
import Tgvisd.Lib.Shell
import Tgvisd.TeaBot.Escape
import Tgvisd.Lib.Basic
import Tgvisd.Main.Configuration
import Tgvisd.Td.SyncCall
import Tgvisd.HistoryScraper.DateColumns
import Tgvisd.HistoryScraper.FileNames
import Tgvisd.HistoryScraper.StoredFiles
import Tgvisd.HistoryScraper.FileStore
import Tgvisd.HistoryScraper.Growth
import Tgvisd.HistoryScraper.Forwards
import Tgvisd.HistoryScraper.View
import Tgvisd.Main.References
import Tgvisd.TeaBot.Replies
import Tgvisd.Main.PanicReport
import Tgvisd.TeaBot.Accounts
