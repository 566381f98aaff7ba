import Growbox.Lib.EventRun
import Growbox.Lib.Decimal
import Growbox.Lib.Locking
import Growbox.Lib.Pool
import Growbox.Lib.Owner
import Growbox.Lib.Ledger
import Growbox.Lib.TwoStore
import Growbox.Lib.Nesting
import Growbox.Lib.RowTable
import Growbox.Lib.SharedVec
import Growbox.Lib.ShellText
import Growbox.Lib.Lines
import Growbox.Lib.Printf
import Growbox.Lib.Block
import Growbox.Lib.Strtok
import Growbox.Lib.FirstMatch
import Growbox.Lib.Crc
import Growbox.Lib.JsonText
import Growbox.Lib.Double
import Growbox.Lib.NumberText
import Growbox.Lib.JsonMeaning
import Growbox.Jsont
import Growbox.AppData
import Growbox.Mydb
import Growbox.TempHum
import Growbox.App
import Growbox.AppCl
import Growbox.AppClimate
import Growbox.ListedDates
import Growbox.LatestRecords
import Growbox.Httpserv
import Growbox.HttpBody
import Growbox.SignIn
import Growbox.AppLocks
import Growbox.AppSettings
import Growbox.ClThreads
import Growbox.SaveThreads
import Growbox.ClimateThreads
import Growbox.AppTh
import Growbox.ThWakeup
import Growbox.Config
import Growbox.PrintedTimes
import Growbox.Flc
import Growbox.FlcStatus
import Growbox.FlcTimes
import Growbox.FlcResponce
import Growbox.AppTypesV2
import Growbox.Dbgmsg
import Growbox.Loger
import Growbox.CoolersController
import Growbox.Uart
import Growbox.Fifo
import Growbox.Sht30
import Growbox.LogFile
import Growbox.ThPeriodRequest
import Growbox.AppDbV2
import Growbox.AppCfgV2
import Growbox.ClCheck
import Growbox.PowerRequest
import Growbox.ReadTextFile
import Growbox.JsonFields
import Growbox.ParseIp
import Growbox.FlcV2
import Growbox.HttpservV2
import Growbox.Flash
import Growbox.CJsonPrint
import Growbox.CJsonParse
import Growbox.CJsonMemory
import Growbox.CJsonText
import Growbox.CJsonRoundTrip
import Growbox.JsontReplies
import Growbox.Main
import Growbox.PlantBoard
