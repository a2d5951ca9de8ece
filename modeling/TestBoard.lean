import TestBoard.Bytes
import TestBoard.Utf8
import TestBoard.Telemetry
import TestBoard.Report
import TestBoard.Capture
import TestBoard.Sentinel
import TestBoard.Emulation
import TestBoard.SerialLink
import TestBoard.Upload
import TestBoard.Controller
import TestBoard.Loop
import TestBoard.Lexer
import TestBoard.Http
import TestBoard.Summary
