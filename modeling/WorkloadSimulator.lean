import WorkloadSimulator.ForStd.Machine
import WorkloadSimulator.App.Types
import WorkloadSimulator.App.Worker
import WorkloadSimulator.App.Stats
import WorkloadSimulator.App.Handlers
import WorkloadSimulator.App.System
import WorkloadSimulator.ForStd.List
import WorkloadSimulator.Spec.AppRun
import WorkloadSimulator.Spec.RequestAccounting
import WorkloadSimulator.Spec.ReportCorrect
import WorkloadSimulator.Spec.ReportFile
import WorkloadSimulator.Spec.WorkerLifecycle
import WorkloadSimulator.Spec.PauseProgress
import WorkloadSimulator.Page.Widgets
import WorkloadSimulator.Spec.ModelChoice
import WorkloadSimulator.Spec.PoolBarrier
import WorkloadSimulator.ForStd.Numbered
import WorkloadSimulator.Page.Dial
import WorkloadSimulator.Page.Client
import WorkloadSimulator.Spec.WorkloadResponse
import WorkloadSimulator.Spec.RunningFlag
import WorkloadSimulator.Spec.ClientStep
import WorkloadSimulator.Spec.LagGraph
import WorkloadSimulator.Spec.PollingChain
import WorkloadSimulator.Spec.StatsReply
import WorkloadSimulator.Spec.DialValues
import WorkloadSimulator.Stress.Session
import WorkloadSimulator.Spec.ExclusiveSession
import WorkloadSimulator.Stress.Server
import WorkloadSimulator.Spec.SubmitWorkload
import WorkloadSimulator.ForStd.Split
import WorkloadSimulator.Stress.QueryTable
import WorkloadSimulator.Spec.QueryTemplate
import WorkloadSimulator.ForStd.Bisect
import WorkloadSimulator.Spec.WeightedSampling
import WorkloadSimulator.Spec.OfferedLoad
import WorkloadSimulator.Spec.WorkerQuota
import WorkloadSimulator.Spec.FailedSubmission
import WorkloadSimulator.ForStd.Decimal
import WorkloadSimulator.Spec.GeneratedValues
import WorkloadSimulator.Stress.StatLoop
import WorkloadSimulator.Spec.StatWindow
import WorkloadSimulator.Spec.QueryIds
import WorkloadSimulator.Spec.SubmittedTexts
import WorkloadSimulator.Page.SavedSession
import WorkloadSimulator.Spec.SaveLoad
import WorkloadSimulator.Stress.Processes
import WorkloadSimulator.Spec.PoolOwnership
import WorkloadSimulator.Spec.SessionExpiry
import WorkloadSimulator.Stress.Plancache
import WorkloadSimulator.Spec.PlancacheRates
import WorkloadSimulator.ForStd.PyValue
import WorkloadSimulator.Stress.Settings
import WorkloadSimulator.Spec.SettingsFields
import WorkloadSimulator.Page.Live
import WorkloadSimulator.Spec.LiveView
import WorkloadSimulator.ForStd.JsNumber
import WorkloadSimulator.Page.DialSettings
import WorkloadSimulator.Spec.DialMaximum
import WorkloadSimulator.App.Ops
import WorkloadSimulator.Spec.PredictContainment
import WorkloadSimulator.Spec.OnePassLexer
import WorkloadSimulator.ForStd.Shell
import WorkloadSimulator.Stress.SqlCommand
import WorkloadSimulator.Spec.SqlConsole
import WorkloadSimulator.ForStd.Json
import WorkloadSimulator.Spec.GeneratedTimes
import WorkloadSimulator.ForStd.JsonWriters
import WorkloadSimulator.ForStd.FormUrl
import WorkloadSimulator.Page.Posting
import WorkloadSimulator.Stress.Forms
import WorkloadSimulator.App.Forms
import WorkloadSimulator.Spec.PlayRequest
import WorkloadSimulator.ForStd.Csv
import WorkloadSimulator.Spec.SaveText
import WorkloadSimulator.App.ReportText
import WorkloadSimulator.Spec.ReportText
import WorkloadSimulator.App.ReplyText
import WorkloadSimulator.Spec.ReplyText
import WorkloadSimulator.Stress.Pacing
import WorkloadSimulator.ForStd.Window
import WorkloadSimulator.Spec.Pacing
import WorkloadSimulator.Stress.LiveStats
import WorkloadSimulator.Spec.LiveStats
import WorkloadSimulator.Stress.PlaySession
import WorkloadSimulator.Spec.PageAgreement
import WorkloadSimulator.Spec.PageWidgets
